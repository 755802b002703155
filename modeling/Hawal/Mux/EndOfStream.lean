import Hawal.Mux.Delivery

/-!
# The end of a stream

`Read` returns `io.EOF` when `readChan` is closed and empty, whoever closed it. On a
stream that was not closed on this side that was the peer's `FrameStreamClose`, a push
or an accept queue that was given up, an open frame that could not be written, or
`Session.Close`; the error is the same. `eof_received` says what had been read by then:
in every case a prefix of the data of the frames that the peer has sent, and after a
`FrameStreamClose` all the data of the frames before it. Of the other endings
`lostRun_eof` is one: the connection is lost, and `io.EOF` is read where two bytes were
written.
-/

namespace Hawal.Mux

open Hawal.Lib Hawal.Transport

/-- Neither in `closeStream` for a `Close`, nor before or in the write of a close frame. -/
def Pc.Mute : Pc → Prop
  | .closing _ (.streamClose _) => False
  | .waitMu (.closeFrame _ _) => False
  | .locked (.closeFrame _ _) => False
  | .writing (.closeFrame _ _) => False
  | _ => True

theorem Pc.Mute.ne_closing {p : Pc} (h : p.Mute) (id : UInt32) (r : Ref) : p ≠ .closing id (.streamClose r) := by
  rintro rfl
  exact h

theorem Pc.Mute.job_ne {p : Pc} (h : p.Mute) (id : UInt32) (why : Closer) : p.job ≠ some (.closeFrame id why) := by
  intro hj
  cases p <;> simp only [Pc.job, Option.some.injEq, reduceCtorEq] at hj <;> subst hj <;> exact h

namespace Session

variable {s s' : Session}

/-- `Close` was called on the stream `r`, which has this id. -/
def Shut (s : Session) (r : Ref) (id : UInt32) : Prop :=
  r < s.fresh ∧ (s.heap r).id = id ∧ (s.heap r).closed = true

/-- `closeStream` has closed the stream with this id. -/
def Dropped (s : Session) (id : UInt32) : Prop :=
  ∃ r < s.fresh, (s.heap r).id = id ∧ ∃ why, (s.heap r).cause = some (.closeStream why)

/-- **Who ends streams**: `closeStream` for the streams that `Close` was called on, and
`FrameStreamClose` is sent for the streams that `closeStream` has closed. -/
structure Ended (s : Session) : Prop where
  closing : ∀ {g id r}, s.pc g = .closing id (.streamClose r) → s.Shut r id
  cause : ∀ {r r'}, r < s.fresh → (s.heap r).cause = some (.closeStream (.streamClose r')) →
    s.Shut r' (s.heap r).id
  job : ∀ {g id why}, (s.pc g).job = some (.closeFrame id why) → s.Dropped id
  sent : ∀ {f}, f ∈ s.sent → f.type = frameStreamClose → s.Dropped f.streamID

theorem newSession_ended (isServer : Bool) : (newSession isServer).Ended where
  closing {g id r} h := by cases g <;> simp [newSession, Gid.start] at h
  cause h := by simp [newSession] at h
  job {g id why} h := by cases g <;> simp [newSession, Gid.start, Pc.job] at h
  sent h := by simp [newSession] at h

/-- Of the jobs only `closeStream`'s writes a `FrameStreamClose`. -/
theorem exists_of_frame_close {j : Job} (h : j.frame.type = frameStreamClose) :
    ∃ id why, j = .closeFrame id why := by
  cases j with
  | closeFrame id why => exact ⟨id, why, rfl⟩
  | _ => exact absurd h (by simp [Job.frame, frameData, frameStreamOpen, frameStreamClose, framePong, framePing])

/-- The channel of an entry of the table was not closed by anyone. -/
theorem Dispatched.cause_eq_none (h : s.Dispatched) (hv : s.Valid) {id : UInt32} {r : Ref}
    (hl : s.streams.lookup id = some r) : (s.heap r).cause = none := by
  obtain ⟨hr, -, hopen⟩ := hv.entry hl
  by_contra hne
  have hclosed := (h.fed r hr).cause.mpr hne
  exact nomatch hopen.symm.trans hclosed

namespace Ended

theorem goto (h : s.Ended) {g : Gid} {p : Pc} (hc : ∀ {id r}, p = .closing id (.streamClose r) → s.Shut r id)
    (hj : ∀ {id why}, p.job = some (.closeFrame id why) → s.Dropped id) : (s.goto g p).Ended where
  closing {g' id r} hg' := by
    by_cases hg : g' = g
    · subst hg
      rw [goto_self] at hg'
      exact hc hg'
    · rw [goto_of_ne p hg] at hg'
      exact h.closing hg'
  cause := h.cause
  job {g' id why} hg' := by
    by_cases hg : g' = g
    · subst hg
      rw [goto_self] at hg'
      exact hj hg'
    · rw [goto_of_ne p hg] at hg'
      exact h.job hg'
  sent := h.sent

theorem goto_mute (h : s.Ended) {g : Gid} {p : Pc} (hp : p.Mute) : (s.goto g p).Ended :=
  h.goto (fun he => absurd he (hp.ne_closing _ _)) fun hj => absurd hj (hp.job_ne _ _)

/-- The fields that are not about the ends of streams. -/
theorem set {next streams acc mu closed once conn ret panic rcvd opens failed} (h : s.Ended) :
    { s with
      nextStreamID := next, streams := streams, acceptChan := acc, writeMu := mu, closed := closed
      closeOnce := once, connClosed := conn, ret := ret, panic := panic, rcvd := rcvd, opens := opens
      writeFailed := failed : Session }.Ended :=
  ⟨h.closing, h.cause, h.job, h.sent⟩

theorem answer (h : s.Ended) (g : Gid) (v : Ret) : (s.answer g v).Ended :=
  (h.goto_mute (g := g) (p := .idle) trivial).set

/-- Streams change, and new ones may come; none is reopened. -/
theorem heap {heap : Ref → Stream} {fresh : Ref} (h : s.Ended) (hf : s.fresh ≤ fresh)
    (hold : ∀ r < s.fresh, (heap r).id = (s.heap r).id ∧ ((s.heap r).closed = true → (heap r).closed = true) ∧
      ((s.heap r).cause ≠ none → (heap r).cause = (s.heap r).cause))
    (hcause : ∀ r < fresh, ∀ r', (heap r).cause = some (.closeStream (.streamClose r')) →
      r < s.fresh ∧ ((s.heap r).cause = (heap r).cause ∨ s.Shut r' (s.heap r).id)) :
    { s with heap := heap, fresh := fresh }.Ended := by
  have hshut : ∀ {r id}, s.Shut r id → { s with heap := heap, fresh := fresh }.Shut r id := by
    intro r id hs
    obtain ⟨hid, hcl, -⟩ := hold r hs.1
    exact ⟨hs.1.trans_le hf, hid.trans hs.2.1, hcl hs.2.2⟩
  have hdropped : ∀ {id}, s.Dropped id → { s with heap := heap, fresh := fresh }.Dropped id := by
    intro id hd
    obtain ⟨r, hr, hrid, why, hwhy⟩ := hd
    obtain ⟨hid, -, hc⟩ := hold r hr
    exact ⟨r, hr.trans_le hf, hid.trans hrid, why, (hc (by simp [hwhy])).trans hwhy⟩
  constructor
  · intro g id r hg
    exact hshut (h.closing hg)
  · intro r r' hr hr'
    obtain ⟨hlt, hc⟩ := hcause r hr r' hr'
    have hs : s.Shut r' (s.heap r).id := by
      rcases hc with hc | hc
      · exact h.cause hlt (hc.trans hr')
      · exact hc
    show Shut _ r' (heap r).id
    rw [(hold r hlt).1]
    exact hshut hs
  · intro g id why hg
    exact hdropped (h.job hg)
  · intro f hm ht
    exact hdropped (h.sent hm ht)

theorem modify (h : s.Ended) {r : Ref} {f : Stream → Stream} (hid : (f (s.heap r)).id = (s.heap r).id)
    (hclosed : (s.heap r).closed = true → (f (s.heap r)).closed = true)
    (hcause : (f (s.heap r)).cause = (s.heap r).cause) : (s.modify r f).Ended := by
  apply h.heap le_rfl
  · intro r' _
    by_cases hr : r' = r
    · subst hr
      rw [Function.update_self]
      exact ⟨hid, hclosed, fun _ => hcause⟩
    · rw [Function.update_of_ne hr]
      exact ⟨rfl, fun hc => hc, fun _ => rfl⟩
  · intro r' hlt r'' hc
    refine ⟨hlt, .inl ?_⟩
    by_cases hr : r' = r
    · subst hr
      rw [Function.update_self, hcause]
    · rw [Function.update_of_ne hr]

theorem enter (h : s.Ended) (id : UInt32) (targetPort : List UInt8) : (s.enter id targetPort).Ended := by
  have hheap : { s with
      heap := Function.update s.heap s.fresh (newStream id targetPort s.rcvd.length)
      fresh := s.fresh + 1 }.Ended := by
    apply h.heap (Nat.le_succ _)
    · intro r hr
      rw [Function.update_of_ne hr.ne]
      exact ⟨rfl, fun hc => hc, fun _ => rfl⟩
    · intro r hr r' hc
      by_cases hf : r = s.fresh
      · subst hf
        rw [Function.update_self] at hc
        exact nomatch hc
      · rw [Function.update_of_ne hf]
        exact ⟨Nat.lt_of_le_of_ne (Nat.le_of_lt_succ hr) hf, .inl rfl⟩
  exact hheap.set

/-- An entry leaves the table, and its channel is closed. -/
theorem drop (h : s.Ended) (hv : s.Valid) (hd : s.Dispatched) {id : UInt32} {r : Ref} {cause : EndCause}
    (hl : s.streams.lookup id = some r) (hc : ∀ {r'}, cause = .closeStream (.streamClose r') → s.Shut r' id) :
    (s.drop id r cause).Ended := by
  have hnone := hd.cause_eq_none hv hl
  have hheap : (s.modify r (·.endedBy cause)).Ended := by
    apply h.heap le_rfl
    · intro r' _
      by_cases hr : r' = r
      · subst hr
        rw [Function.update_self]
        exact ⟨rfl, fun hc => hc, fun hne => absurd hnone hne⟩
      · rw [Function.update_of_ne hr]
        exact ⟨rfl, fun hc => hc, fun _ => rfl⟩
    · intro r' hlt r'' hc'
      refine ⟨hlt, ?_⟩
      by_cases hr : r' = r
      · subst hr
        rw [Function.update_self] at hc'
        rw [(hv.entry hl).2.1]
        exact .inr (hc (Option.some.inj hc'))
      · rw [Function.update_of_ne hr]
        exact .inl rfl
  rw [hv.drop_eq hl]
  exact hheap.set

theorem closeReturn (h : s.Ended) (g : Gid) (why : Closer) : (s.closeReturn g why).Ended := by
  cases why with
  | pushTimeout => exact h.goto_mute trivial
  | acceptOverflow => exact h.goto_mute trivial
  | openFailed => exact h.answer g _
  | streamClose r => exact (h.modify (r := r) (f := ({ · with closeOnce := .done })) rfl (fun hc => hc) rfl).answer g _

theorem acquire (h : s.Ended) {g : Gid} {j : Job} (hg : s.pc g = .waitMu j) : (s.acquire g j).Ended := by
  have hgo : (s.goto g (.locked j)).Ended :=
    h.goto (fun hp => nomatch hp) fun hj => h.job (g := g) (by rw [hg]; exact hj)
  cases j with
  | data r id data offset =>
    exact hgo.set.modify (r := r) (f := fun st => { st with put := st.put ++ data }) rfl (fun hc => hc) rfl
  | _ => exact hgo.set

theorem beginWrite (h : s.Ended) {g : Gid} {j : Job} (hg : s.pc g = .locked j) : (s.beginWrite g j).Ended := by
  have hj : ∀ {id why}, j = .closeFrame id why → s.Dropped id := fun he => h.job (g := g) (by rw [hg, he]; rfl)
  have hgo : (s.goto g (.writing j)).Ended :=
    h.goto (fun hp => nomatch hp) fun hp => hj (Option.some.inj hp)
  refine ⟨hgo.closing, hgo.cause, hgo.job, fun {f} hf ht => ?_⟩
  unfold Session.beginWrite at hf
  dsimp only at hf
  split_ifs at hf with hw
  · exact h.sent hf ht
  · rcases List.mem_append.mp hf with hf | hf
    · exact h.sent hf ht
    · rw [List.mem_singleton] at hf
      subst hf
      obtain ⟨id, why, rfl⟩ := exists_of_frame_close ht
      exact hj rfl

theorem endWrite (h : s.Ended) (g : Gid) (j : Job) (ok : Bool) : (s.endWrite g j ok).Ended := by
  have hw : { s with writeFailed := s.writeFailed || !ok }.Ended := h.set
  have hr : { s with writeFailed := s.writeFailed || !ok }.release.Ended := h.set
  cases j with
  | openFrame r id targetPort =>
    cases ok with
    | true => exact (hr.modify (r := r) (f := ({ · with handed := true })) rfl (fun hc => hc) rfl).answer g _
    | false => exact hr.goto_mute trivial
  | closeFrame id why => exact hr.closeReturn g why
  | data r id data offset =>
    cases ok with
    | true => exact hw.goto_mute trivial
    | false => exact hr.answer g _
  | pong => exact hr.goto_mute trivial
  | ping => exact hr.goto_mute trivial

theorem giveUp (h : s.Ended) (g : Gid) (j : Job) : (s.giveUp g j).Ended := by
  have hr : s.release.Ended := h.set
  cases j with
  | data r id data offset => exact hr.answer g _
  | _ => exact hr.goto_mute trivial

theorem closeDone (h : s.Ended) (g : Gid) : (s.closeDone g).Ended := by
  cases g with
  | app n => exact h.answer _ _
  | _ => exact h.goto_mute trivial

theorem dispatch (h : s.Ended) (hv : s.Valid) (hd : s.Dispatched) (f : Frame) : (s.dispatch f).Ended := by
  have hf : (s.heard f).Ended := h.set
  have hv' : (s.heard f).Valid := ⟨hv.entry, hv.works, hv.queued, hv.handed, hv.queue⟩
  rcases s.dispatch_cases f with ⟨-, hs⟩ | ⟨r, -, hl, hs⟩ | ⟨r, -, hl, hs⟩ | ⟨-, hs⟩ | ⟨-, -, -, hs⟩
  all_goals rw [hs]
  · exact (hf.enter f.streamID f.payload).goto_mute trivial
  · exact hf.goto_mute trivial
  · have hdrop : (s.drop f.streamID r .peerClose).Ended := h.drop hv hd hl fun hp => nomatch hp
    rw [hv.drop_eq hl] at hdrop
    rw [hv'.drop_eq hl]
    exact hdrop.set
  · exact hf.goto_mute trivial
  · exact hf

theorem closeStreams (h : s.Ended) (hv : s.Valid) (hd : s.Dispatched) : s.closeStreams.Ended := by
  have hheap : { s with
      heap := fun r => if s.streams.lookup (s.heap r).id = some r then (s.heap r).endedBy .sessionClose
        else s.heap r }.Ended := by
    apply h.heap le_rfl
    · intro r _
      split
      · rename_i hl
        exact ⟨rfl, fun hc => hc, fun hne => absurd (hd.cause_eq_none hv hl) hne⟩
      · exact ⟨rfl, fun hc => hc, fun _ => rfl⟩
    · intro r hlt r' hc
      refine ⟨hlt, .inl ?_⟩
      split at hc
      · exact nomatch hc
      · rename_i hl
        rw [if_neg hl]
  rw [hv.closeStreams_eq]
  exact hheap.set

theorem step {a : Act} (h : s.Ended) (hv : s.Valid) (hd : s.Dispatched) (hs : s.step a = some s') : s'.Ended := by
  cases (trans_of_step hs).2 with
  | openRefused => exact h.answer _ _
  | @openStream g targetPort =>
    have he := h.enter (s.nextStreamID + 2) targetPort
    exact (he.goto_mute (g := g) (p := .waitMu (.openFrame s.fresh (s.nextStreamID + 2) targetPort)) trivial).set
  | acceptEnded => exact h.answer _ _
  | @acceptStream g r c =>
    exact (h.modify (r := r) (f := ({ · with handed := true })) rfl (fun hc => hc) rfl).set.answer g _
  | writeRefused => exact h.answer _ _
  | write => exact h.goto_mute trivial
  | read _ _ hread =>
    obtain ⟨c, buf, got, rfl, -⟩ := Stream.read_eq_some hread
    exact (h.modify rfl (fun hc => hc) rfl).answer _ _
  | @closeStream g r _ hh =>
    have hm := h.modify (r := r) (f := ({ · with closeOnce := .running, closed := true })) rfl (fun _ => rfl) rfl
    refine hm.goto (fun hp => ?_) fun hp => by cases hp
    rw [Pc.closing.injEq, Closer.streamClose.injEq] at hp
    obtain ⟨rfl, rfl⟩ := hp
    refine ⟨hv.handed hh, ?_, ?_⟩ <;> rw [modify_self]
  | closeStreamAgain => exact h.answer _ _
  | close => exact (h.goto_mute (p := .teardown) trivial).set
  | closeAgain => exact h.closeDone _
  | @dropEntry g id why r hg hl =>
    have hdrop : (s.drop id r (.closeStream why)).Ended := h.drop hv hd hl fun {r'} hp => by
      rw [EndCause.closeStream.injEq] at hp
      exact h.closing (g := g) (hp ▸ hg)
    refine hdrop.goto (fun hp => by cases hp) fun {id' why'} hp => ?_
    simp only [Pc.job, Option.some.injEq, Job.closeFrame.injEq] at hp
    obtain ⟨rfl, -⟩ := hp
    rw [hv.drop_eq hl]
    refine ⟨r, (hv.entry hl).1, ?_, why, ?_⟩
    · exact (congrArg Stream.id (modify_self (s := s) r (·.endedBy (.closeStream why)))).trans (hv.entry hl).2.1
    · exact congrArg Stream.cause (modify_self (s := s) r (·.endedBy (.closeStream why)))
  | dropMissing => exact h.closeReturn _ _
  | lock hg => exact h.acquire hg
  | beginFrame hg => exact h.beginWrite hg
  | endFrame => exact h.endWrite _ _ _
  | unlock => exact h.giveUp _ _
  | recv => exact h.dispatch hv hd _
  | recvErr => exact h.goto_mute trivial
  | enqueuePanics => exact h.set
  | enqueue => exact (h.goto_mute (g := .readLoop) (p := .read) trivial).set
  | overflow => exact h.goto_mute trivial
  | pushPanics => exact h.set
  | push => exact (h.modify rfl (fun hc => hc) rfl).goto_mute trivial
  | timeout => exact h.goto_mute trivial
  | closeStreams => exact (h.closeStreams hv hd).set
  | closeAccept _ ho =>
    have hopen : s.acceptChan.closed = false := by rw [hv.queue, ho]; rfl
    rw [Session.closeAccept, hopen]
    exact h.set
  | @closeConn g => exact (h.closeDone g).set
  | tick => exact h.goto_mute trivial

end Ended

end Session

namespace Pair

variable {cfg : Config} {p p' : Pair}

/-- Both sessions keep it. -/
theorem exec_newPair_ended {es : List Event} (h : exec (step cfg) newPair es = some p) (x : Side) :
    (p x).sess.Ended := by
  have hrun := exec_newPair_sess (I := fun s => s.Valid ∧ s.Dispatched ∧ s.Ended)
    (fun b => ⟨Session.newSession_valid b, Session.newSession_dispatched b, Session.newSession_ended b⟩)
    (fun hs h => ⟨hs.1.step h, hs.2.1.step hs.1 h, hs.2.2.step hs.1 hs.2.1 h⟩) h
  exact (hrun x).2.2

/-- A stream that the peer has ended was closed there, and has received all the data of the
frames before the peer's `FrameStreamClose`. -/
theorem Linked.ended_by_peer (h : Linked cfg p) {x : Side} {r : Ref} (hr : r < (p x).sess.fresh)
    (hc : ((p x).sess.heap r).cause = some .peerClose) :
    ∃ n f, (p x.other).sess.sent[n]? = some f ∧ f.type = frameStreamClose ∧
      f.streamID = ((p x).sess.heap r).id ∧
      ((p x).sess.heap r).received = dataOf ((p x).sess.heap r).id ((p x.other).sess.sent.take n) := by
  obtain ⟨-, n, f, hn, hle, ht, hid, hall⟩ := ((h.sound x).dispatched.fed r hr).peer hc
  have hlt : n < (p x).sess.rcvd.length := (List.getElem?_eq_some_iff.mp hn).1
  obtain ⟨more, hmore⟩ := h.rcvd_le x
  have hn' : (p x.other).sess.sent[n]? = some f := by rw [← hmore, List.getElem?_append_left hlt, hn]
  refine ⟨n, f, hn', ht, hid, ?_⟩
  rw [hall, ← hmore, List.take_append_of_le_length hlt.le]
  have hbefore : ((p x).sess.rcvd.take n).take ((p x).sess.heap r).since =
      (p x).sess.rcvd.take ((p x).sess.heap r).since := by rw [List.take_take, Nat.min_eq_left hle]
  have hsplit := congrArg (dataOf ((p x).sess.heap r).id)
    (List.take_append_drop ((p x).sess.heap r).since ((p x).sess.rcvd.take n))
  rwa [dataOf_append, hbefore, h.untouched hr, List.nil_append] at hsplit

/-- **What the end of a stream tells.** When `Read` returns `io.EOF` on a stream that was
not closed on this side, what it had returned before is a prefix of the data of the
frames that the peer has sent for the stream. Something other than a `Close` here has
closed `readChan`; if that was the peer's `FrameStreamClose`, `closeStream` has closed
the stream at the peer, and what was read is all the data of the frames before it. -/
theorem eof_received {es : List Event} (h : exec (step cfg) newPair es = some p) (hb : Bounded p) {x : Side}
    {g : Gid} {r : Ref} {n : ℕ} (hread : p.step cfg (.act x (.read g r n)) = some p')
    (heof : (p' x).sess.ret g = some .eof) (hopen : ((p x).sess.heap r).closed = false) :
    ((p x).sess.heap r).got <+: dataOf ((p x).sess.heap r).id (p x.other).sess.sent ∧
    ∃ cause, ((p x).sess.heap r).cause = some cause ∧ (∀ r', cause ≠ .closeStream (.streamClose r')) ∧
      (cause = .peerClose → (p x.other).sess.Dropped ((p x).sess.heap r).id ∧
        ∃ n f, (p x.other).sess.sent[n]? = some f ∧ f.type = frameStreamClose ∧
          f.streamID = ((p x).sess.heap r).id ∧
          ((p x).sess.heap r).got = dataOf ((p x).sess.heap r).id ((p x.other).sess.sent.take n)) := by
  have hl := exec_newPair_linked h hb.roomy
  obtain ⟨hr, hclosed, hgot⟩ : r < (p x).sess.fresh ∧ ((p x).sess.heap r).readChan.closed = true ∧
      ((p x).sess.heap r).received = ((p x).sess.heap r).got := by
    cases trans_of_step hread with
    | act _ hs =>
      cases (Session.trans_of_step hs).2 with
      | @read _ _ _ ret st _ hh hst =>
        rw [run, put_self] at heof
        have hret : ret = .eof := by simpa [Session.answer] using heof
        subst hret
        exact ⟨(hl.sound x).valid.handed hh, Stream.read_eq_eof hst⟩
  have hfed := (hl.sound x).dispatched.fed r hr
  obtain ⟨cause, hcause⟩ := Option.ne_none_iff_exists'.mp (hfed.cause.mp hclosed)
  refine ⟨(hl.got_le x hr).trans (dataOf_mono _ (hl.rcvd_le x)), cause, hcause, ?_, ?_⟩
  · intro r' hc
    -- the stream that was closed here is this one
    obtain ⟨hlt, hid, hcl⟩ := (exec_newPair_ended h x).cause hr (hc ▸ hcause)
    obtain rfl : r' = r := (hl.sound x).unique hlt hr hid
    exact nomatch hopen.symm.trans hcl
  · intro hc
    obtain ⟨n, f, hn, ht, hid, hall⟩ := hl.ended_by_peer hr (hc ▸ hcause)
    exact ⟨hid ▸ (exec_newPair_ended h x.other).sent (List.mem_of_getElem? hn) ht, n, f, hn, ht, hid,
      hgot ▸ hall⟩

/-- The server writes two bytes to a stream and closes it; the client reads them. -/
def closedRun : List Event :=
  opensStream ++ .act .server (.write (.app 0) 0 [7, 8]) :: writesFrame .server (.app 0) 46 ++
    [.act .server (.unlock (.app 0)), .act .server (.closeStream (.app 0) 0),
      .act .server (.dropEntry (.app 0))] ++ writesFrame .server (.app 0) 44 ++
    readsFrame .client 30 ++ .act .client .push :: readsFrame .client 28 ++
    [.act .client (.read (.app 0) 0 8)]

/-- The end of the stream in `closedRun`. -/
theorem closedRun_eof : ∃ p, exec (step (sampleConfig 100)) newPair closedRun = some p ∧
    ((p .client).sess.heap 0).got = [7, 8] ∧
    ∃ n f, (p .server).sess.sent[n]? = some f ∧ f.type = frameStreamClose ∧
      ((p .client).sess.heap 0).got = dataOf 3 ((p .server).sess.sent.take n) := by
  obtain ⟨p, hp, hgot, hb, hopen, hid, hcause, hread⟩ := exists_of_any (P := fun p : Pair =>
      ((p .client).sess.heap 0).got = [7, 8] ∧
        ((p .server).sess.opens < 2 ^ 31 ∧ (p .client).sess.opens < 2 ^ 31) ∧
        ((p .client).sess.heap 0).closed = false ∧ ((p .client).sess.heap 0).id = 3 ∧
        ((p .client).sess.heap 0).cause = some .peerClose ∧
        (p.step (sampleConfig 100) (.act .client (.read (.app 0) 0 8))).any
          fun p' => (p' .client).sess.ret (.app 0) = some .eof)
    (show (exec (step (sampleConfig 100)) newPair closedRun).any _ = true by decide +kernel)
  obtain ⟨p', hp', heof⟩ := exists_of_any hread
  obtain ⟨-, cause, hc, -, hpeer⟩ := eof_received hp (bounded_of_sides hb) hp' heof hopen
  obtain ⟨-, n, f, hn, ht, -, hall⟩ := hpeer (Option.some.inj (hc.symm.trans hcause))
  exact ⟨p, hp, hgot, n, f, hn, ht, hid ▸ hall⟩

/-- The server writes two bytes to a stream, and the connection is lost before they
arrive. -/
def lostRun : List Event :=
  opensStream ++ .act .server (.write (.app 0) 0 [7, 8]) :: writesFrame .server (.app 0) 46 ++
    [.act .server (.unlock (.app 0)), .cut .server, .recvErr .client, .act .client (.close .readLoop),
      .act .client (.closeStreams .readLoop)]

/-- `io.EOF` where the peer has not closed the stream, and `Write` has reported two bytes
that were not read. -/
theorem lostRun_eof : ∃ p p', exec (step (sampleConfig 100)) newPair lostRun = some p ∧
    p.step (sampleConfig 100) (.act .client (.read (.app 0) 0 8)) = some p' ∧
    (p' .client).sess.ret (.app 0) = some .eof ∧ p.Same .client 0 0 ∧
    ((p .client).sess.heap 0).closed = false ∧ ((p .server).sess.heap 0).closed = false ∧
    (p .server).sess.ret (.app 0) = some (.wrote 2 false) ∧ ((p .server).sess.heap 0).put = [7, 8] ∧
    ((p .client).sess.heap 0).got = [] := by
  obtain ⟨p, hp, hread, hfacts⟩ := exists_of_any (P := fun p : Pair =>
      (p.step (sampleConfig 100) (.act .client (.read (.app 0) 0 8))).any
          (fun p' => (p' .client).sess.ret (.app 0) = some .eof) ∧
        (0 < (p .client).sess.fresh ∧ 0 < (p .server).sess.fresh ∧
          ((p .client).sess.heap 0).id = ((p .server).sess.heap 0).id) ∧
        ((p .client).sess.heap 0).closed = false ∧ ((p .server).sess.heap 0).closed = false ∧
        (p .server).sess.ret (.app 0) = some (.wrote 2 false) ∧ ((p .server).sess.heap 0).put = [7, 8] ∧
        ((p .client).sess.heap 0).got = [])
    (show (exec (step (sampleConfig 100)) newPair lostRun).any _ = true by decide +kernel)
  obtain ⟨p', hp', heof⟩ := exists_of_any hread
  exact ⟨p, p', hp, hp', heof, hfacts⟩

end Pair

end Hawal.Mux
