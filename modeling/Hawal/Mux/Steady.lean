import Hawal.Mux.Moves
import Hawal.Mux.EndOfStream

/-!
# Runs without failures

* `Unused` — a stream that was not handed to the application yet has not been used.
* `Steady` — what holds while no write or read fails, no push is given up and nobody
  closes the session: a stream is ended by the peer, by its own `Close`, or because the
  accept queue had no room for it, and then the application never has it.
-/

namespace Hawal.Mux

open Hawal.Lib Hawal.Transport

/-- Not a failure, nor a call of `Session.Close`. -/
def Act.Smooth : Act → Bool
  | .timeout => false
  | .recvErr => false
  | .close _ => false
  | .endFrame _ ok => ok
  | _ => true

namespace Session

variable {s s' : Session} {a : Act} {r : Ref}

/-! ### Streams that were not handed out -/

/-- The application has not used the stream `r`. -/
structure Unused (s : Session) (r : Ref) : Prop where
  got : (s.heap r).got = []
  put : (s.heap r).put = []
  closed : (s.heap r).closed = false
  job : ∀ {g id data offset}, (s.pc g).job ≠ some (.data r id data offset)

/-- **What was not handed out was not used**, and how far `Close` has come. -/
structure Handing (s : Session) : Prop where
  unused : ∀ r < s.fresh, (s.heap r).handed = false → s.Unused r
  once : ∀ r < s.fresh, (s.heap r).closeOnce = .fresh ↔ (s.heap r).closed = false
  job : ∀ {g id r}, (s.pc g).job = some (.closeFrame id (.streamClose r)) → s.Shut r id

theorem newSession_handing (isServer : Bool) : (newSession isServer).Handing where
  unused r hr := by simp [newSession] at hr
  once r hr := by simp [newSession] at hr
  job {g id r} h := by cases g <;> simp [newSession, Gid.start, Pc.job] at h

/-- `Close` is not taken back. -/
theorem StreamMoves.closed {st : Stream} (h : s.StreamMoves r a st) (hc : (s.heap r).closed = true) :
    st.closed = true := by
  cases h with
  | reads _ hread =>
    obtain ⟨c, buf, got, hst, -⟩ := Stream.read_eq_some hread
    rw [hst]
    exact hc
  | shuts _ _ he => rw [he]
  | _ =>
    rename_i he
    rw [he]
    exact hc

/-- A stream keeps its id. -/
theorem StreamMoves.id {st : Stream} (h : s.StreamMoves r a st) : st.id = (s.heap r).id := by
  cases h with
  | reads _ hread =>
    obtain ⟨c, buf, got, hst, -⟩ := Stream.read_eq_some hread
    rw [hst]
  | _ =>
    rename_i he
    simp [he, Stream.endedBy]

/-- A stream that was handed out stays so. -/
theorem StreamMoves.handed {st : Stream} (h : s.StreamMoves r a st) (hh : (s.heap r).handed = true) :
    st.handed = true := by
  cases h with
  | reads _ hread =>
    obtain ⟨c, buf, got, hst, -⟩ := Stream.read_eq_some hread
    rw [hst]
    exact hh
  | accepted _ he => rw [he]
  | opened _ he => rw [he]
  | _ =>
    rename_i he
    rw [he]
    exact hh

/-- Nothing is received on a stream that has ended. -/
theorem StreamMoves.ended_stays {st : Stream} (h : s.StreamMoves r a st) (hv : s.Valid) (hd : s.Dispatched)
    (hr : r < s.fresh) (hc : (s.heap r).cause ≠ none) :
    st.cause = (s.heap r).cause ∧ st.received = (s.heap r).received := by
  have hclosed := (hd.fed r hr).cause.mpr hc
  cases h with
  | reads _ hread =>
    obtain ⟨c, buf, got, hst, -, hrec⟩ := Stream.read_eq_some hread
    exact ⟨by rw [hst], hrec⟩
  | dropped _ hl => exact absurd (hd.cause_eq_none hv hl) hc
  | ended _ hl => exact absurd (hd.cause_eq_none hv hl) hc
  | tornDown _ hl => exact absurd (hd.cause_eq_none hv hl) hc
  | pushed _ hsend => exact absurd ((Chan.send_eq_sent hsend).1.symm.trans hclosed) Bool.false_ne_true
  | _ =>
    rename_i he
    rw [he]
    exact ⟨rfl, rfl⟩

theorem Trans.fresh_le (hv : s.Valid) (h : s.Trans a s') : s.fresh ≤ s'.fresh := by
  rcases (h.entered hv).1 with hf | ⟨hf, -⟩
  · exact hf.ge
  · exact hf ▸ Nat.le_succ _

theorem Shut.step {id : UInt32} (h : s.Shut r id) (hv : s.Valid) (ht : s.Trans a s') : s'.Shut r id :=
  have hmoves := ht.stream hv h.1
  ⟨h.1.trans_le (ht.fresh_le hv), hmoves.id.trans h.2.1, hmoves.closed h.2.2⟩

/-- What is done to a stream that was not handed out, and is not now. -/
theorem StreamMoves.unused {st : Stream} (h : s.StreamMoves r a st) (hh : st.handed = false)
    (hu : (s.heap r).handed = false → s.Unused r) : (s.heap r).handed = false ∧
      st.got = (s.heap r).got ∧ st.put = (s.heap r).put ∧ st.closed = (s.heap r).closed := by
  cases h with
  | reads hh' hread =>
    obtain ⟨c, buf, got, hst, -⟩ := Stream.read_eq_some hread
    rw [hst] at hh
    cases hh'.symm.trans hh
  | shuts hh' _ he =>
    rw [he] at hh
    cases hh'.symm.trans hh
  | writes hg he =>
    rw [he] at hh
    exact absurd (congrArg Pc.job hg) (hu hh).job
  | accepted _ he =>
    rw [he] at hh
    cases hh
  | opened _ he =>
    rw [he] at hh
    cases hh
  | _ =>
    rename_i he
    rw [he] at hh ⊢
    exact ⟨hh, rfl, rfl, rfl⟩

/-- A stream made in this step is a new one. -/
theorem Trans.new (hv : s.Valid) (h : s.Trans a s') (hr : r < s'.fresh) (hnew : ¬ r < s.fresh) :
    ∃ id targetPort, r = s.fresh ∧ s'.heap r = newStream id targetPort s'.rcvd.length := by
  cases h.receives hv with
  | keeps hk => exact absurd (hk.fresh ▸ hr) hnew
  | @openStream g targetPort =>
    obtain rfl : r = s.fresh := Nat.le_antisymm (Nat.le_of_lt_succ hr) (Nat.not_lt.mp hnew)
    exact ⟨_, _, rfl, enter_self (s := s) _ _⟩
  | dropEntry _ hl =>
    rw [hv.drop_eq hl] at hr
    exact absurd hr hnew
  | @recv f =>
    have hv' : (s.heard f).Valid := ⟨hv.entry, hv.works, hv.queued, hv.handed, hv.queue⟩
    rcases s.dispatch_cases f with ⟨-, hd⟩ | ⟨r₀, -, hl, hd⟩ | ⟨r₀, -, hl, hd⟩ | ⟨-, hd⟩ | ⟨-, -, -, hd⟩
    all_goals rw [hd] at hr ⊢
    · obtain rfl : r = s.fresh := Nat.le_antisymm (Nat.le_of_lt_succ hr) (Nat.not_lt.mp hnew)
      exact ⟨_, _, rfl, enter_self (s := s.heard f) _ _⟩
    · exact absurd hr hnew
    · rw [hv'.drop_eq hl] at hr
      exact absurd hr hnew
    · exact absurd hr hnew
    · exact absurd hr hnew
  | closeStreams =>
    rw [hv.closeStreams_eq] at hr
    exact absurd hr hnew
  | _ => exact absurd hr hnew

/-- The data that a goroutine comes to write is of a stream that was handed out. -/
theorem JobMoves.data {g : Gid} {id : UInt32} {data : List UInt8} {offset : ℕ}
    (h : s.JobMoves g a (.data r id data offset)) :
    (∃ offset, (s.pc g).job = some (.data r id data offset)) ∨ (s.heap r).handed = true := by
  cases h with
  | keeps hj => exact .inl ⟨offset, hj⟩
  | goesOn hg he =>
    rw [Job.data.injEq] at he
    obtain ⟨rfl, rfl, rfl, -⟩ := he
    exact .inl ⟨_, by rw [hg]; rfl⟩
  | writes hh he =>
    rw [Job.data.injEq] at he
    exact .inr (he.1 ▸ hh)
  | opens he => cases he
  | drops _ he => cases he
  | answers he => cases he
  | pings he => cases he

theorem Valid.job_stream (hv : s.Valid) {g : Gid} {j : Job} {id : UInt32} (hj : (s.pc g).job = some j)
    (hr : j.stream = some (r, id)) : r < s.fresh := by
  have hw : (s.pc g).stream = some (r, id) := by
    cases hp : s.pc g <;> simp_all [Pc.job, Pc.stream]
  exact (hv.works hw).1

theorem Handing.step (h : s.Handing) (hv : s.Valid) (he : s.Ended) (hs : s.step a = some s') : s'.Handing := by
  have ht := (trans_of_step hs).2
  refine ⟨fun r hr hh => ?_, fun r hr => ?_, fun {g id r} hj => ?_⟩
  · by_cases hlt : r < s.fresh
    · obtain ⟨hh₀, hgot, hput, hclosed⟩ := (ht.stream hv hlt).unused hh (h.unused r hlt)
      have hu := h.unused r hlt hh₀
      refine ⟨hgot.trans hu.got, hput.trans hu.put, hclosed.trans hu.closed, fun {g id data offset} hj => ?_⟩
      rcases (ht.job hv hj).data with ⟨offset, hj₀⟩ | hh'
      · exact hu.job hj₀
      · cases hh'.symm.trans hh₀
    · obtain ⟨id, targetPort, rfl, hnew⟩ := ht.new hv hr hlt
      refine ⟨by rw [hnew]; rfl, by rw [hnew]; rfl, by rw [hnew]; rfl, fun {g id data offset} hj => ?_⟩
      rcases (ht.job hv hj).data with ⟨offset, hj₀⟩ | hh'
      · exact lt_irrefl _ (hv.job_stream hj₀ rfl)
      · exact lt_irrefl _ (hv.handed hh')
  · by_cases hlt : r < s.fresh
    · have ho := h.once r hlt
      cases ht.stream hv hlt with
      | reads _ hread =>
        obtain ⟨c, buf, got, hst, -⟩ := Stream.read_eq_some hread
        rw [hst]
        exact ho
      | shuts _ _ heq =>
        rw [heq]
        simp
      | shut hg heq =>
        have hshut : s.Shut r _ := hg.elim (fun hg => he.closing hg) fun hg => h.job (congrArg Pc.job hg)
        rw [heq]
        simp [hshut.2.2]
      | _ =>
        rename_i heq
        rw [heq]
        exact ho
    · obtain ⟨id, targetPort, rfl, hnew⟩ := ht.new hv hr hlt
      rw [hnew]
      simp [newStream]
  · have hold : s.Shut r id := by
      cases ht.job hv hj with
      | keeps hj₀ => exact h.job hj₀
      | drops hg heq =>
        rw [Job.closeFrame.injEq] at heq
        obtain ⟨rfl, rfl⟩ := heq
        exact he.closing hg
      | goesOn _ heq => cases heq
      | opens heq => cases heq
      | writes _ heq => cases heq
      | answers heq => cases heq
      | pings heq => cases heq
    exact hold.step hv ht

/-! ### Runs without failures -/

/-- Nobody has the stream `r`, nor will `AcceptStream` or `OpenStream` return it. -/
structure Unclaimed (s : Session) (r : Ref) : Prop where
  handed : (s.heap r).handed = false
  queued : r ∉ s.acceptChan.buf
  job : ∀ {g id targetPort}, (s.pc g).job ≠ some (.openFrame r id targetPort)

theorem Unclaimed.goto (h : s.Unclaimed r) {g : Gid} {p : Pc} (hp : p.job = none) : (s.goto g p).Unclaimed r where
  handed := h.handed
  queued := h.queued
  job {g' id targetPort} hj := by
    by_cases hg : g' = g
    · subst hg
      rw [goto_self, hp] at hj
      cases hj
    · rw [goto_of_ne p hg] at hj
      exact h.job hj

theorem Unclaimed.step (h : s.Unclaimed r) (hv : s.Valid) (hr : r < s.fresh) (ht : s.Trans a s')
    (ha : a = .enqueue → ∀ id, s.pc .readLoop ≠ .accept r id) : s'.Unclaimed r where
  handed := by
    cases ht.stream hv hr with
    | reads hh => cases hh.symm.trans h.handed
    | shuts hh => cases hh.symm.trans h.handed
    | accepted hrecv => exact absurd ((Chan.recv_eq_value hrecv).1 ▸ List.mem_cons_self) h.queued
    | opened hg => exact absurd (congrArg Pc.job hg) h.job
    | _ =>
      rename_i he
      rw [he]
      exact h.handed
  queued hq := by
    rcases ht.queued hv hq with hq | ⟨id, he, hp⟩
    · exact h.queued hq
    · exact ha he id hp
  job {g id targetPort} hj := by
    cases ht.job hv hj with
    | keeps hj => exact h.job hj
    | opens he =>
      rw [Job.openFrame.injEq] at he
      exact hr.ne he.1
    | goesOn _ he => cases he
    | writes _ he => cases he
    | drops _ he => cases he
    | answers he => cases he
    | pings he => cases he

/-- A stream that nobody had is handed out by one of two steps. -/
theorem Trans.hands (hv : s.Valid) (ht : s.Trans a s') (hr : r < s.fresh) (hh : (s.heap r).handed = false)
    (hh' : (s'.heap r).handed = true) :
    (∃ c, s.acceptChan.recv = .value r c ∧ s'.acceptChan = c) ∨
      ∃ g id targetPort, s.pc g = .writing (.openFrame r id targetPort) ∧ s'.pc g = .idle := by
  cases ht.stream hv hr with
  | reads hh₀ => cases hh.symm.trans hh₀
  | shuts hh₀ => cases hh.symm.trans hh₀
  | @accepted g c _ hrecv =>
    cases ht with
    | acceptEnded => cases hh.symm.trans hh'
    | acceptStream _ hrecv' =>
      rw [hrecv, Received.value.injEq] at hrecv'
      exact .inl ⟨c, hrecv, hrecv'.2.symm⟩
  | @opened g id targetPort _ hg =>
    cases ht with
    | endFrame hg' =>
      rw [hg, Pc.writing.injEq] at hg'
      subst hg'
      exact .inr ⟨g, id, targetPort, hg, by simp [Session.endWrite, Session.answer]⟩
  | _ =>
    rename_i he
    rw [he] at hh'
    cases hh.symm.trans hh'

/-- **A stream is handed out once**: those that `readLoop` is about to put into the accept
queue, those in it and those that `OpenStream` is announcing are different streams, and
nobody has them. -/
structure Offered (s : Session) : Prop where
  accepting : ∀ {r id}, s.pc .readLoop = .accept r id → s.Unclaimed r
  queued : ∀ {r}, r ∈ s.acceptChan.buf → (s.heap r).handed = false ∧
    ∀ {g id targetPort}, (s.pc g).job ≠ some (.openFrame r id targetPort)
  nodup : s.acceptChan.buf.Nodup
  opening : ∀ {g r id targetPort}, (s.pc g).job = some (.openFrame r id targetPort) → (s.heap r).handed = false
  opener : ∀ {g g' r id id' targetPort targetPort'}, (s.pc g).job = some (.openFrame r id targetPort) →
    (s.pc g').job = some (.openFrame r id' targetPort') → g = g'

theorem newSession_offered (isServer : Bool) : (newSession isServer).Offered where
  accepting h := by simp [newSession, Gid.start] at h
  queued h := by simp [newSession] at h
  nodup := List.nodup_nil
  opening {g r id targetPort} h := by cases g <;> simp [newSession, Gid.start, Pc.job] at h
  opener {g g' r id id' targetPort targetPort'} h := by cases g <;> simp [newSession, Gid.start, Pc.job] at h

/-- `OpenStream` announces the stream it has made. -/
theorem JobMoves.openFrame {g : Gid} {id : UInt32} {targetPort : List UInt8}
    (h : s.JobMoves g a (.openFrame r id targetPort)) :
    (s.pc g).job = some (.openFrame r id targetPort) ∨ (∃ targetPort, a = .openStream g targetPort) ∧ r = s.fresh := by
  cases h with
  | keeps hj => exact .inl hj
  | opens he =>
    rw [Job.openFrame.injEq] at he
    exact .inr ⟨⟨_, rfl⟩, he.1⟩
  | goesOn _ he => cases he
  | writes _ he => cases he
  | drops _ he => cases he
  | answers he => cases he
  | pings he => cases he

namespace Offered

theorem accepting_step (h : s.Offered) (hv : s.Valid) (hv' : s'.Valid) (ht : s.Trans a s') {id : UInt32}
    (hp : s'.pc .readLoop = .accept r id) : s'.Unclaimed r := by
  rcases ht.accepting hv hp with hp₀ | ⟨⟨f, rfl⟩, rfl⟩
  · have hu := h.accepting hp₀
    by_cases he : a = .enqueue
    · subst he
      -- `readLoop` has left the `select`, unless the send panics
      cases ht with
      | enqueuePanics => exact ⟨hu.handed, hu.queued, hu.job⟩
      | enqueue =>
        rw [show _ = Pc.read from goto_self (s := s) _ _] at hp
        cases hp
      | overflow =>
        rw [goto_self] at hp
        cases hp
    · have hr : r < s.fresh := (hv.works (g := .readLoop) (by rw [hp₀]; rfl)).1
      exact hu.step hv hr ht fun he' => absurd he' he
  · obtain ⟨id', targetPort, -, hnew⟩ := ht.new hv (hv'.works (g := .readLoop) (by rw [hp]; rfl)).1 (lt_irrefl _)
    refine ⟨by rw [hnew]; rfl, fun hq => ?_, fun {g id targetPort} hj => ?_⟩
    · rcases ht.queued hv hq with hq | ⟨_, he, -⟩
      · exact lt_irrefl _ (hv.queued hq)
      · cases he
    · rcases (ht.job hv hj).openFrame with hj | ⟨⟨_, he⟩, -⟩
      · exact lt_irrefl _ (hv.job_stream hj rfl)
      · cases he

/-- A queued stream that nobody had is with nobody as long as it stays in the queue. -/
theorem queued_step (h : s.Offered) (hv : s.Valid) (ht : s.Trans a s') (hq : r ∈ s'.acceptChan.buf) :
    (s'.heap r).handed = false ∧ ∀ {g id targetPort}, (s'.pc g).job ≠ some (.openFrame r id targetPort) := by
  -- it was in the queue, or `readLoop` was about to put it there
  obtain ⟨hr, hh, hj⟩ : r < s.fresh ∧ (s.heap r).handed = false ∧
      ∀ {g id targetPort}, (s.pc g).job ≠ some (.openFrame r id targetPort) := by
    rcases ht.queued hv hq with hq | ⟨id, -, hp⟩
    · exact ⟨hv.queued hq, h.queued hq⟩
    · exact ⟨(hv.works (g := .readLoop) (by rw [hp]; rfl)).1, (h.accepting hp).handed, (h.accepting hp).job⟩
  refine ⟨Bool.eq_false_iff.mpr fun hh' => ?_, fun {g id targetPort} hj' => ?_⟩
  · rcases ht.hands hv hr hh hh' with ⟨c, hrecv, hc⟩ | ⟨g, id, targetPort, hg, -⟩
    · have hnd := h.nodup
      rw [(Chan.recv_eq_value hrecv).1, List.nodup_cons] at hnd
      exact hnd.1 (hc ▸ hq)
    · exact hj (congrArg Pc.job hg)
  · rcases (ht.job hv hj').openFrame with hj' | ⟨-, hr'⟩
    · exact hj hj'
    · exact hr.ne hr'

/-- The queue keeps its streams apart. -/
theorem nodup_step (h : s.Offered) (hv : s.Valid) (ht : s.Trans a s') : s'.acceptChan.buf.Nodup := by
  rcases ht.queue hv with hc | ⟨g, r, c, hrecv, -, hc⟩ | ⟨r, id, -, hp, hc⟩
  · exact hc ▸ h.nodup
  · have hnd := h.nodup
    rw [(Chan.recv_eq_value hrecv).1, List.nodup_cons] at hnd
    exact hc ▸ hnd.2
  · rw [hc, List.nodup_append]
    refine ⟨h.nodup, List.nodup_singleton r, fun r' hr' r'' hr'' he => ?_⟩
    rw [List.mem_singleton] at hr''
    exact (h.accepting hp).queued (hr'' ▸ he ▸ hr')

theorem step (h : s.Offered) (hv : s.Valid) (hs : s.step a = some s') : s'.Offered := by
  have ht := (trans_of_step hs).2
  refine ⟨h.accepting_step hv (hv.step hs) ht, h.queued_step hv ht, h.nodup_step hv ht,
    fun {g r id targetPort} hj => ?_, fun {g g' r id id' targetPort targetPort'} hj hj' => ?_⟩
  · rcases (ht.job hv hj).openFrame with hj₀ | ⟨⟨targetPort', rfl⟩, rfl⟩
    · refine Bool.eq_false_iff.mpr fun hh' => ?_
      rcases ht.hands hv (hv.job_stream hj₀ rfl) (h.opening hj₀) hh' with ⟨c, hrecv, -⟩ | ⟨g', id', tp, hg', hidle⟩
      · exact (h.queued ((Chan.recv_eq_value hrecv).1 ▸ List.mem_cons_self)).2 hj₀
      · obtain rfl := h.opener hj₀ (congrArg Pc.job hg')
        rw [hidle] at hj
        cases hj
    · obtain ⟨id', tp, -, hnew⟩ := ht.new hv ((hv.step hs).job_stream hj rfl) (lt_irrefl _)
      rw [hnew]
      rfl
  · rcases (ht.job hv hj).openFrame with hj | ⟨⟨_, rfl⟩, rfl⟩ <;>
      rcases (ht.job hv hj').openFrame with hj' | ⟨⟨_, he⟩, hr⟩
    · exact h.opener hj hj'
    · exact absurd (hr ▸ hv.job_stream hj rfl) (lt_irrefl _)
    · exact absurd (hv.job_stream hj' rfl) (lt_irrefl _)
    · rw [Act.openStream.injEq] at he
      exact he.1

end Offered

/-- The accept queue had no room for the stream `r`, and it was dropped. -/
structure Lost (s : Session) (r : Ref) (id : UInt32) : Prop where
  lt : r < s.fresh
  id : (s.heap r).id = id
  unclaimed : s.Unclaimed r
  accepting : ∀ {id}, s.pc .readLoop ≠ .accept r id

theorem Lost.step {id : UInt32} (h : s.Lost r id) (hv : s.Valid) (ht : s.Trans a s') : s'.Lost r id where
  lt := h.lt.trans_le (ht.fresh_le hv)
  id := (ht.stream hv h.lt).id.trans h.id
  unclaimed := h.unclaimed.step hv h.lt ht fun _ _ => h.accepting
  accepting {id} hp := by
    rcases ht.accepting hv hp with hp | ⟨-, hr⟩
    · exact h.accepting hp
    · exact h.lt.ne hr

/-- **Without failures** a stream is ended by the peer, by its own `Close`, or because
the accept queue was full. -/
structure Steady (s : Session) : Prop where
  closeOnce : s.closeOnce = .ready
  closed : s.closed = false
  writeFailed : s.writeFailed = false
  closing : ∀ {g id why}, s.pc g = .closing id why → (∃ r, why = .streamClose r) ∨ ∃ r, s.Lost r id
  cause : ∀ {r cause}, r < s.fresh → (s.heap r).cause = some cause →
    cause = .peerClose ∨ (∃ r', cause = .closeStream (.streamClose r')) ∨ s.Lost r (s.heap r).id

theorem newSession_steady (isServer : Bool) : (newSession isServer).Steady where
  closeOnce := rfl
  closed := rfl
  writeFailed := rfl
  closing {g id why} h := by cases g <;> simp [newSession, Gid.start] at h
  cause h := by simp [newSession] at h

namespace Steady

/-- How `readChan` comes to be closed in a step. -/
theorem cause_step (h : s.Steady) (hv : s.Valid) (hu : s.Unique) (ht : s.Trans a s') {cause : EndCause}
    (hr : r < s.fresh) (hc : (s'.heap r).cause = some cause) :
    cause = .peerClose ∨ (∃ r', cause = .closeStream (.streamClose r')) ∨ s.Lost r (s.heap r).id := by
  cases ht.stream hv hr with
  | reads _ hread =>
    obtain ⟨c, buf, got, hst, -⟩ := Stream.read_eq_some hread
    rw [hst] at hc
    exact h.cause hr hc
  | @dropped g id why st hg hl he =>
    rw [he, Stream.endedBy, Option.some.injEq] at hc
    obtain ⟨-, hid, -⟩ := hv.entry hl
    rcases h.closing hg with ⟨r', rfl⟩ | ⟨r', hlost⟩
    · exact .inr (.inl ⟨r', hc.symm⟩)
    · -- the stream of that id is the one that was lost
      obtain rfl : r' = r := hu hlost.lt hr (hlost.id.trans hid.symm)
      exact .inr (.inr (hid ▸ hlost))
  | ended _ _ he =>
    rw [he, Stream.endedBy, Option.some.injEq] at hc
    exact .inl hc.symm
  | tornDown ho => cases h.closeOnce.symm.trans ho
  | _ =>
    rename_i he
    rw [he] at hc
    exact h.cause hr hc

theorem step (h : s.Steady) (hv : s.Valid) (hu : s.Unique) (ho : s.Offered) (ha : a.Smooth = true)
    (hs : s.step a = some s') : s'.Steady := by
  have ht := (trans_of_step hs).2
  have hclose : ∀ g, a ≠ .close g := by
    rintro g rfl
    cases ha
  obtain ⟨honce, hclosed⟩ := ht.unclosed hv hclose h.closeOnce
  refine ⟨honce, hclosed.trans h.closed, ?_, fun {g id why} hp => ?_, fun {r cause} hr hc => ?_⟩
  · by_cases he : ∃ g ok, a = .endFrame g ok
    · obtain ⟨g, ok, rfl⟩ := he
      cases ht with
      | endFrame => rw [endWrite_writeFailed, h.writeFailed, show ok = true from ha]; rfl
    · rw [ht.writeFailed hv fun g ok ho => he ⟨g, ok, ho⟩, h.writeFailed]
  · cases ht.closing hv hp with
    | keeps hp => exact (h.closing hp).imp_right fun ⟨r, hl⟩ => ⟨r, hl.step hv ht⟩
    | shuts _ _ hw => exact .inl ⟨_, hw⟩
    | openFailed he =>
      rw [he] at ha
      cases ha
    | @overflow r id why hg hacc =>
      subst hg
      obtain ⟨hr, hid⟩ : r < s.fresh ∧ (s.heap r).id = id := hv.works (g := .readLoop) (by rw [hacc]; rfl)
      refine .inr ⟨r, hr.trans_le (ht.fresh_le hv), (ht.stream hv hr).id.trans hid, ?_, fun {id'} hp' => ?_⟩
      · cases ht with
        | enqueuePanics => cases hacc.symm.trans hp
        | enqueue =>
          rw [show _ = Pc.read from goto_self (s := s) _ _] at hp
          cases hp
        | overflow => exact (ho.accepting hacc).goto rfl
      · cases hp.symm.trans hp'
    | timeout => cases ha
  · by_cases hlt : r < s.fresh
    · have hid := (ht.stream hv hlt).id
      rcases h.cause_step hv hu ht hlt hc with hc | hc | hc
      · exact .inl hc
      · exact .inr (.inl hc)
      · exact .inr (.inr (hid ▸ hc.step hv ht))
    · obtain ⟨id, targetPort, rfl, hnew⟩ := ht.new hv hr hlt
      rw [hnew] at hc
      cases hc

end Steady

/-- What a session keeps while nothing fails. -/
structure Undisturbed (s : Session) : Prop where
  ended : s.Ended
  handing : s.Handing
  offered : s.Offered
  steady : s.Steady

theorem newSession_undisturbed (isServer : Bool) : (newSession isServer).Undisturbed where
  ended := newSession_ended isServer
  handing := newSession_handing isServer
  offered := newSession_offered isServer
  steady := newSession_steady isServer

theorem Undisturbed.step (h : s.Undisturbed) (hs : s.Sound) (ha : a.Smooth = true) (hstep : s.step a = some s') :
    s'.Undisturbed where
  ended := h.ended.step hs.valid hs.dispatched hstep
  handing := h.handing.step hs.valid h.ended hstep
  offered := h.offered.step hs.valid hstep
  steady := h.steady.step hs.valid hs.unique h.offered ha hstep

/-- Whose stream it is that was closed here, without failures: of those that were handed
out it is the one that `Close` was called on. -/
theorem Undisturbed.cause_of_handed (h : s.Undisturbed) (hu : s.Unique) {cause : EndCause} (hr : r < s.fresh)
    (hh : (s.heap r).handed = true) (hc : (s.heap r).cause = some cause) :
    cause = .peerClose ∨ cause = .closeStream (.streamClose r) ∧ (s.heap r).closed = true := by
  rcases h.steady.cause hr hc with hp | ⟨r', rfl⟩ | hl
  · exact .inl hp
  · obtain ⟨hlt, hid, hclosed⟩ := h.ended.cause hr hc
    obtain rfl : r' = r := hu hlt hr hid
    exact .inr ⟨rfl, hclosed⟩
  · cases hh.symm.trans hl.unclaimed.handed

/-- A stream that `FrameStreamClose` was sent for, or is about to be, was handed out only
if `Close` was called on it. -/
theorem Undisturbed.closed_of_dropped (h : s.Undisturbed) (hu : s.Unique) (hr : r < s.fresh)
    (hh : (s.heap r).handed = true) (hd : s.Dropped (s.heap r).id) :
    (s.heap r).closed = true ∧ (s.heap r).cause = some (.closeStream (.streamClose r)) := by
  obtain ⟨r', hlt, hid, why, hc⟩ := hd
  obtain rfl : r' = r := hu hlt hr hid
  rcases h.cause_of_handed hu hr hh hc with hp | ⟨hp, hclosed⟩
  · cases hp
  · exact ⟨hclosed, hp ▸ hc⟩

end Session

/-- No failure of the connection, nor of a session, and no call of `Session.Close`. -/
def Event.Smooth : Event → Bool
  | .act _ a => a.Smooth
  | .endFrame _ _ ok => ok
  | .recvErr _ => false
  | .cut _ => false
  | _ => true

theorem Event.Smooth.act {e : Event} {z : Side} {a : Act} (h : e.Smooth = true) (ha : a.At z e) :
    a.Smooth = true := by
  cases a with
  | beginFrame => rfl
  | recv => rfl
  | _ =>
    obtain rfl : e = _ := ha
    exact h

/-- **Both sessions go on undisturbed.** -/
theorem Pair.Linked.undisturbed_step {cfg : Config} {p p' : Pair} {e : Event} (h : Linked cfg p)
    (hu : ∀ x, (p x).sess.Undisturbed) (he : e.Smooth = true) (hs : p.step cfg e = some p') :
    ∀ x, (p' x).sess.Undisturbed := by
  intro x
  obtain ⟨z, hother, hz⟩ := (trans_of_step hs).sess
  rcases Side.eq_or_eq_other z x with rfl | rfl
  · rcases hz with hz | ⟨a, hact, hat, -⟩
    · exact hz ▸ hu x
    · exact (hu x).step (h.sound x) (Event.Smooth.act he hat) hact
  · exact hother ▸ hu z.other

end Hawal.Mux
