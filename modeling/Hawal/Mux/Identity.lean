import Hawal.Mux.Steady

/-!
# Which stream an id means

Ids are 32 bits wide, advance by 2 with each `OpenStream` and wrap around; nobody looks
whether the next one is free, and `closeStream` finds a stream by its id. So what matters
is which streams still go by an id: those in the table, and those whose `Close` may still
come to look their id up (`InUse`).

* `Apart` — no two streams in use have one id.
* `Pair.Careful` — `OpenStream` takes only ids that are out of use on both sides.
* `Pair.careful_keeps_identity` — runs of such steps replace no entry, and `Close` of a
  stream ends no other stream. Runs with at most 2³¹ streams on each side are of this
  kind (`Pair.Roomy.careful`).
* `Pair.wrappedRun_replaces` — other runs are not.
-/

namespace Hawal.Mux

open Hawal.Lib Hawal.Transport

namespace Session

variable {s s' : Session} {a : Act} {r : Ref}

/-! ### Streams in use -/

/-- `Close` of the stream `r` may still come to its section under `streamsMu`: it was called,
or the application has the stream, or will get it, and has not called it. -/
def Claimed (s : Session) (r : Ref) : Prop :=
  (∃ g id, s.pc g = .closing id (.streamClose r)) ∨
    (s.heap r).closeOnce = .fresh ∧ ((∃ id, s.pc .readLoop = .accept r id) ∨ ¬ s.Unclaimed r)

/-- The stream `r` still goes by its id. -/
def InUse (s : Session) (r : Ref) : Prop := s.streams.lookup (s.heap r).id = some r ∨ s.Claimed r

/-- A stream in use has this id. -/
def Uses (s : Session) (id : UInt32) : Prop := ∃ r < s.fresh, (s.heap r).id = id ∧ s.InUse r

/-- No two streams in use have one id. -/
def Apart (s : Session) : Prop :=
  ∀ {r r'}, r < s.fresh → r' < s.fresh → s.InUse r → s.InUse r' → (s.heap r).id = (s.heap r').id → r = r'

theorem newSession_apart (isServer : Bool) : (newSession isServer).Apart := by
  intro r r' hr
  simp [newSession] at hr

/-- `closeOnce` does not go back. -/
theorem StreamMoves.fresh {st : Stream} (h : s.StreamMoves r a st) (ho : st.closeOnce = .fresh) :
    (s.heap r).closeOnce = .fresh := by
  cases h with
  | reads _ hread =>
    obtain ⟨c, buf, got, hst, -⟩ := Stream.read_eq_some hread
    rw [hst] at ho
    exact ho
  | shuts _ hf _ => exact hf
  | shut _ he =>
    rw [he] at ho
    cases ho
  | _ =>
    rename_i he
    rw [he] at ho
    exact ho

/-- Nobody comes by a claim to an old stream. -/
theorem Claimed.of_step (h : s'.Claimed r) (hv : s.Valid) (hr : r < s.fresh) (ht : s.Trans a s') : s.Claimed r := by
  rcases h with ⟨g, id, hp⟩ | ⟨ho, hu⟩
  · cases ht.closing hv hp with
    | keeps hg => exact .inl ⟨g, id, hg⟩
    | shuts hh _ he =>
      rw [Closer.streamClose.injEq] at he
      subst he
      cases ht with
      | closeStream _ _ ho => exact .inr ⟨ho, .inr fun hu => Bool.false_ne_true (hu.handed.symm.trans hh)⟩
      | closeStreamAgain =>
        have hidle : (s.goto g .idle).pc g = .closing id (.streamClose r) := hp
        rw [goto_self] at hidle
        cases hidle
    | openFailed _ he => cases he
    | overflow _ _ he => cases he
    | timeout he => cases he
  · refine .inr ⟨(ht.stream hv hr).fresh ho, ?_⟩
    by_contra hno
    obtain ⟨hacc, hun⟩ := not_or.mp hno
    rcases hu with ⟨id, hp⟩ | hu
    · rcases ht.accepting hv hp with hp | ⟨-, he⟩
      · exact hacc ⟨id, hp⟩
      · exact hr.ne he
    · exact hu ((not_not.mp hun).step hv hr ht fun _ id hp => hacc ⟨id, hp⟩)

/-- No old stream comes into use. -/
theorem InUse.of_step (h : s'.InUse r) (hv : s.Valid) (hr : r < s.fresh) (ht : s.Trans a s') : s.InUse r := by
  rcases h with hl | hc
  · rw [(ht.stream hv hr).id] at hl
    rcases ht.lookup hv hl with hl | ⟨he, -⟩
    · exact .inl hl
    · exact absurd he hr.ne
  · exact .inr (hc.of_step hv hr ht)

/-- An id comes into use with a new stream. -/
theorem Uses.of_step {id : UInt32} (h : s'.Uses id) (hv : s.Valid) (ht : s.Trans a s') :
    s.Uses id ∨ s'.fresh = s.fresh + 1 ∧ (s'.heap s.fresh).id = id := by
  obtain ⟨r, hr, hid, hu⟩ := h
  by_cases hlt : r < s.fresh
  · exact .inl ⟨r, hlt, (ht.stream hv hlt).id ▸ hid, hu.of_step hv hlt ht⟩
  · obtain ⟨id', targetPort, rfl, -⟩ := ht.new hv hr hlt
    rcases (ht.entered hv).1 with hf | ⟨hf, -⟩
    · exact absurd (hf ▸ hr) (lt_irrefl _)
    · exact .inr ⟨hf, hid⟩

theorem Apart.step (h : s.Apart) (hv : s.Valid) (ht : s.Trans a s')
    (hnew : s'.fresh = s.fresh + 1 → ¬ s.Uses (s'.heap s.fresh).id) : s'.Apart := by
  -- a new stream and an old one have different ids
  have differ : ∀ {r r'}, r < s.fresh → r' < s'.fresh → ¬ r' < s.fresh → s'.InUse r →
      (s'.heap r).id ≠ (s'.heap r').id := by
    intro r r' hr hr' hnot hu hid
    obtain ⟨_, _, rfl, -⟩ := ht.new hv hr' hnot
    rcases (ht.entered hv).1 with hf | ⟨hf, -⟩
    · exact absurd (hf ▸ hr') (lt_irrefl _)
    · exact hnew hf ⟨r, hr, (ht.stream hv hr).id.symm.trans hid, hu.of_step hv hr ht⟩
  intro r r' hr hr' hu hu' hid
  by_cases hlt : r < s.fresh <;> by_cases hlt' : r' < s.fresh
  · rw [(ht.stream hv hlt).id, (ht.stream hv hlt').id] at hid
    exact h hlt hlt' (hu.of_step hv hlt ht) (hu'.of_step hv hlt' ht) hid
  · exact absurd hid (differ hlt hr' hlt' hu)
  · exact absurd hid.symm (differ hlt' hr hlt hu')
  · obtain ⟨_, _, rfl, -⟩ := ht.new hv hr hlt
    obtain ⟨_, _, rfl, -⟩ := ht.new hv hr' hlt'
    rfl

/-! ### What must not happen -/

/-- An entry of the table is replaced. -/
def Replaces (s s' : Session) : Prop :=
  ∃ id r r', s.streams.lookup id = some r ∧ s'.streams.lookup id = some r' ∧ r' ≠ r

/-- The stream `r` leaves the table, or its `readChan` is closed. -/
def Ends (s s' : Session) (r : Ref) : Prop :=
  (∃ id, s.streams.lookup id = some r ∧ s'.streams.lookup id ≠ some r) ∨
    r < s.fresh ∧ (s.heap r).readChan.closed ≠ (s'.heap r).readChan.closed

/-- The step is `closeStream` of `Stream.Close` on `r`, and ends another stream. -/
def EndsOther (s s' : Session) (a : Act) : Prop :=
  ∃ g id r, a = .dropEntry g ∧ s.pc g = .closing id (.streamClose r) ∧ ∃ r' ≠ r, s.Ends s' r'

/-- A stream that is registered under an id out of use replaces nothing. -/
theorem Valid.not_replaces (hv : s.Valid) (hs : s.step a = some s')
    (hnew : s'.fresh = s.fresh + 1 → ¬ s.Uses (s'.heap s.fresh).id) : ¬ s.Replaces s' := by
  rintro ⟨id, r, r', hl, hl', hne⟩
  have hid := ((hv.step hs).entry hl').2.1
  rcases (trans_of_step hs).2.lookup hv hl' with hold | ⟨rfl, hf⟩
  · exact hne (Option.some.inj (hold.symm.trans hl))
  · obtain ⟨hlt, hidr, -⟩ := hv.entry hl
    exact hnew hf ⟨r, hlt, hidr.trans hid.symm, .inl (hidr.symm ▸ hl)⟩

/-- `Close` of a stream finds no other stream under its id. -/
theorem Apart.not_endsOther (h : s.Apart) (hv : s.Valid) (he : s.Ended) (hs : s.step a = some s') :
    ¬ s.EndsOther s' a := by
  rintro ⟨g, id, r, rfl, hg, r', hne, hends⟩
  obtain ⟨hlt, hid, -⟩ := he.closing hg
  cases (trans_of_step hs).2 with
  | @dropEntry _ id' why r₀ hg' hl =>
    rw [hg, Pc.closing.injEq] at hg'
    obtain ⟨rfl, rfl⟩ := hg'
    obtain ⟨hlt₀, hid₀, -⟩ := hv.entry hl
    have hr : r₀ = r := h hlt₀ hlt (.inl (hid₀.symm ▸ hl)) (.inr (.inl ⟨g, id, hg⟩)) (hid₀.trans hid.symm)
    subst hr
    rw [hv.drop_eq hl] at hends
    rcases hends with ⟨id', hl', hgone⟩ | ⟨-, hchan⟩
    · have hids : id' ≠ id := by
        rintro rfl
        exact hne (Option.some.inj (hl'.symm.trans hl))
      exact hgone ((AList.lookup_erase_ne hids).trans hl')
    · exact hchan (congrArg (·.readChan.closed)
        (modify_of_ne (s := s) (·.endedBy (.closeStream (.streamClose r₀))) hne)).symm
  | dropMissing hg' hl =>
    rw [hg, Pc.closing.injEq] at hg'
    obtain ⟨rfl, rfl⟩ := hg'
    rcases hends with ⟨id', hl', hgone⟩ | ⟨-, hchan⟩
    · exact hgone hl'
    · exact hchan (congrArg (·.readChan.closed) (modify_of_ne (s := s) ({ · with closeOnce := .done }) hne)).symm

/-! ### Announcements -/

/-- Streams are counted where `OpenStream` registers them. -/
theorem Trans.opened (hv : s.Valid) (h : s.Trans a s') (ho : s'.opens ≠ s.opens) :
    ∃ g targetPort, a = .openStream g targetPort ∧ s.closed = false := by
  by_cases ha : ∃ g targetPort, a = .openStream g targetPort
  · obtain ⟨g, targetPort, rfl⟩ := ha
    cases h with
    | openRefused => exact absurd rfl ho
    | openStream _ hc => exact ⟨g, targetPort, rfl, hc⟩
  · cases h.receives hv with
    | keeps hk => exact absurd hk.opens ho
    | openStream => exact absurd ⟨_, _, rfl⟩ ha
    | dropEntry _ hl =>
      rw [hv.drop_eq hl] at ho
      exact absurd rfl ho
    | @recv f =>
      obtain ⟨_, _, _, _, hd, -⟩ := dispatch_eq_of_valid hv f
      rw [hd] at ho
      exact absurd rfl ho
    | closeStreams =>
      rw [hv.closeStreams_eq] at ho
      exact absurd rfl ho
    | _ => exact absurd rfl ho

theorem exists_job_of_unsaid {p : Pc} {id : UInt32} (h : p.unsaid = some (r, id)) :
    ∃ targetPort, p.job = some (.openFrame r id targetPort) := by
  cases p with
  | waitMu j => cases j <;> simp_all [Pc.unsaid, Pc.job]
  | locked j => cases j <;> simp_all [Pc.unsaid, Pc.job]
  | _ => cases h

/-- A stream is announced by the `OpenStream` that made it. -/
theorem Trans.unsaid (hv : s.Valid) (h : s.Trans a s') {g : Gid} {id : UInt32}
    (hu : (s'.pc g).unsaid = some (r, id)) :
    (s.pc g).unsaid = some (r, id) ∨
      (∃ targetPort, a = .openStream g targetPort) ∧ s.closed = false ∧ id = s.nextStreamID + 2 := by
  obtain ⟨targetPort, hj⟩ := exists_job_of_unsaid hu
  cases h.job hv hj with
  | keeps hj₀ =>
    left
    cases hp : s.pc g with
    | writing j =>
      -- the frame is being written, and then it is said
      exfalso
      by_cases hg : g = a.gid
      · subst hg
        rw [hp, Pc.job, Option.some.injEq] at hj₀
        subst hj₀
        obtain ⟨ok, rfl, -⟩ := h.next.2.2.2 _ hp
        cases ok <;> simp [Session.endWrite, Session.answer, Pc.unsaid] at hu
      · rw [(h.others hv hg).1, hp] at hu
        cases hu
    | waitMu j =>
      rw [hp, Pc.job, Option.some.injEq] at hj₀
      rw [hj₀]
      rfl
    | locked j =>
      rw [hp, Pc.job, Option.some.injEq] at hj₀
      rw [hj₀]
      rfl
    | _ =>
      rw [hp] at hj₀
      cases hj₀
  | @opens targetPort' id' _ he =>
    right
    cases h with
    | openRefused =>
      have hidle : ((s.goto g .idle).pc g).unsaid = some (r, id) := hu
      rw [goto_self] at hidle
      cases hidle
    | openStream _ hc =>
      have hwait : ((s.goto g (.waitMu (.openFrame s.fresh (s.nextStreamID + 2) targetPort'))).pc g).unsaid =
        some (r, id) := hu
      rw [goto_self, Pc.unsaid, Option.some.injEq, Prod.mk.injEq] at hwait
      exact ⟨⟨_, rfl⟩, hc, hwait.2.symm⟩
  | goesOn _ he => cases he
  | writes _ he => cases he
  | drops _ he => cases he
  | answers he => cases he
  | pings he => cases he

/-- What a step says. -/
theorem Trans.said (hv : s.Valid) (h : s.Trans a s') : s'.sent = s.sent ∨
    ∃ g j, a = .beginFrame g ∧ s.pc g = .locked j ∧ s'.pc g = .writing j ∧ s'.sent = s.sent ++ [j.frame] := by
  by_cases ha : ∃ g, a = .beginFrame g
  · obtain ⟨g, rfl⟩ := ha
    cases h with
    | @beginFrame _ j hg _ =>
      cases hf : s.writeFailed with
      | true => exact .inl (by simp [Session.beginWrite, hf])
      | false => exact .inr ⟨g, j, rfl, hg, goto_self g _, by simp [Session.beginWrite, hf]⟩
  · exact .inl (h.sent hv fun g he => ha ⟨g, he⟩)

/-- What holds of a session whatever ids its peer announces. -/
structure Grounded (s : Session) : Prop where
  valid : s.Valid
  dispatched : s.Dispatched
  locked : s.Locked
  numbered : s.Numbered
  ended : s.Ended
  handing : s.Handing
  offered : s.Offered

theorem newSession_grounded (isServer : Bool) : (newSession isServer).Grounded where
  valid := newSession_valid isServer
  dispatched := newSession_dispatched isServer
  locked := newSession_locked isServer
  numbered := newSession_numbered isServer
  ended := newSession_ended isServer
  handing := newSession_handing isServer
  offered := newSession_offered isServer

theorem Grounded.step (h : s.Grounded) (hs : s.step a = some s') : s'.Grounded where
  valid := h.valid.step hs
  dispatched := h.dispatched.step h.valid hs
  locked := h.locked.step h.valid hs
  numbered := h.numbered.step h.valid hs
  ended := h.ended.step h.valid h.dispatched hs
  handing := h.handing.step h.valid h.ended hs
  offered := h.offered.step h.valid hs

/-- A stream that is still to be announced is in use. -/
theorem Grounded.inUse_of_unsaid (h : s.Grounded) {g : Gid} {id : UInt32}
    (hu : (s.pc g).unsaid = some (r, id)) : r < s.fresh ∧ (s.heap r).id = id ∧ s.InUse r := by
  obtain ⟨targetPort, hj⟩ := exists_job_of_unsaid hu
  obtain ⟨hlt, hid⟩ := h.valid.works (Pc.stream_of_unsaid hu)
  have hh := h.offered.opening hj
  have hfresh := (h.handing.once r hlt).mpr (h.handing.unused r hlt hh).closed
  exact ⟨hlt, hid, .inr (.inr ⟨hfresh, .inr fun hun => hun.job hj⟩)⟩

end Session

namespace Pair

variable {cfg : Config} {p p' : Pair} {e : Event} {x : Side}

/-- The ids that `x` has announced and the other side has not seen. -/
def announced (p : Pair) (x : Side) : List UInt32 :=
  opensOf ((p x).sess.sent.drop (p x.other).sess.rcvd.length)

/-- No stream goes by the id, on either side, and no announcement of it is on the way from `x`. -/
def OutOfUse (p : Pair) (x : Side) (id : UInt32) : Prop :=
  (∀ y, ¬ (p y).sess.Uses id) ∧ id ∉ p.announced x

/-- **`OpenStream` takes an id out of use.** -/
def Careful (p : Pair) : Event → Prop
  | .act x (.openStream _ _) => (p x).sess.closed = false → p.OutOfUse x ((p x).sess.nextStreamID + 2)
  | _ => True

theorem Careful.openStream {z : Side} {a : Act} (h : p.Careful e) (ha : a.At z e) :
    ∀ g targetPort, a = .openStream g targetPort → (p z).sess.closed = false →
      p.OutOfUse z ((p z).sess.nextStreamID + 2) := by
  rintro g targetPort rfl hc
  rw [show e = _ from ha] at h
  exact h hc

/-- **What holds of two sessions whose ids are taken with care.** -/
structure Distinct (cfg : Config) (p : Pair) : Prop where
  side : ∀ x, (p x).sess.isServer = decide (x = .server)
  grounded : ∀ x, (p x).sess.Grounded
  carried : ∀ x, Carried cfg p x
  apart : ∀ x, (p x).sess.Apart
  nodup : ∀ x, (p.announced x).Nodup
  announced : ∀ x, ∀ id ∈ p.announced x, ¬ (p x.other).sess.Uses id
  unsaid : ∀ {x g r id}, ((p x).sess.pc g).unsaid = some (r, id) →
    id ∉ p.announced x ∧ ¬ (p x.other).sess.Uses id

theorem newPair_distinct (cfg : Config) : Distinct cfg newPair where
  side _ := rfl
  grounded x := Session.newSession_grounded _
  carried x := newPair_carried cfg x
  apart x := Session.newSession_apart _
  nodup x := by simp [Pair.announced, newPair, newSession]
  announced x := by simp [Pair.announced, newPair, newSession]
  unsaid {x g r id} h := by cases g <;> simp [newPair, newSession, Gid.start, Pc.unsaid] at h

namespace Distinct

/-- What `x` has announced, or is to announce, are its own ids. -/
theorem mine (h : Distinct cfg p) : (∀ id ∈ p.announced x, (p x).sess.Mine id) ∧
    ∀ g r id, ((p x).sess.pc g).unsaid = some (r, id) → (p x).sess.Mine id := by
  have hn := (h.grounded x).numbered
  refine ⟨fun id hid => ?_, fun g r id hu => ?_⟩
  · have hsub : id ∈ opensOf (p x).sess.sent := by
      rw [← List.take_append_drop (p x.other).sess.rcvd.length (p x).sess.sent, opensOf_append]
      exact List.mem_append_right _ hid
    exact (hn.sent id hsub).mine
  · obtain ⟨targetPort, hj⟩ := Session.exists_job_of_unsaid hu
    exact (hn.opening hj).mine

/-- The step of the session at `z` registers its stream under an id out of use. -/
theorem new_of_step (h : Distinct cfg p) {z : Side} {a : Act} {s : Session} (hs : (p z).sess.step a = some s)
    (hcare : ∀ g targetPort, a = .openStream g targetPort → (p z).sess.closed = false →
      p.OutOfUse z ((p z).sess.nextStreamID + 2))
    (hrcvd : s.rcvd <+: (p z.other).sess.sent) (hnew : s.fresh = (p z).sess.fresh + 1) :
    ¬ (p z).sess.Uses (s.heap (p z).sess.fresh).id ∧
      ((p z).sess.Mine (s.heap (p z).sess.fresh).id ∧ s.rcvd = (p z).sess.rcvd ∨
        ∃ f, f.type = frameStreamOpen ∧ (s.heap (p z).sess.fresh).id = f.streamID ∧ s.rcvd = (p z).sess.rcvd ++ [f]) := by
  have hg := h.grounded z
  have ht := (Session.trans_of_step hs).2
  rcases (ht.entered hg.valid).1 with hf | ⟨-, -, ⟨hid, ho, hr⟩ | ⟨f, hft, hid, hr⟩⟩
  · exact absurd (hf.symm.trans hnew) (Nat.ne_add_one _)
  · obtain ⟨g, targetPort, ha, hc⟩ := ht.opened hg.valid (by omega)
    rw [hid]
    exact ⟨(hcare g targetPort ha hc).1 z, .inl ⟨hg.numbered.next_mine, hr⟩⟩
  · refine ⟨?_, .inr ⟨f, hft, hid, hr⟩⟩
    -- the frame is the first that was on the way
    have hmem : f.streamID ∈ p.announced z.other := by
      obtain ⟨more, hmore⟩ := hrcvd
      rw [Pair.announced, Side.other_other, ← hmore, hr, List.append_assoc, List.drop_left, opensOf_append,
        opensOf_open hft]
      exact List.mem_append_left _ (List.mem_singleton_self _)
    rw [hid]
    simpa using h.announced z.other f.streamID hmem

/-- An id of the other side that nobody uses comes into use only where its announcement arrives. -/
theorem not_uses_of_step (h : Distinct cfg p) {z : Side} {a : Act} {s : Session} (hs : (p z).sess.step a = some s)
    (hcare : ∀ g targetPort, a = .openStream g targetPort → (p z).sess.closed = false →
      p.OutOfUse z ((p z).sess.nextStreamID + 2))
    (hrcvd : s.rcvd <+: (p z.other).sess.sent) {id : UInt32} (hid : (p z.other).sess.Mine id)
    (hnot : ¬ (p z).sess.Uses id)
    (hother : ∀ f, f.type = frameStreamOpen → s.rcvd = (p z).sess.rcvd ++ [f] → f.streamID ≠ id) : ¬ s.Uses id := by
  intro hu
  rcases hu.of_step (h.grounded z).valid (Session.trans_of_step hs).2 with hu | ⟨hnew, he⟩
  · exact hnot hu
  · rcases (h.new_of_step hs hcare hrcvd hnew).2 with ⟨hmine, -⟩ | ⟨f, hft, hf, hr⟩
    · exact not_mine_of_other h.side hid (he ▸ hmine)
    · exact hother f hft hr (hf.symm.trans he)

/-- Two goroutines do not announce one id. -/
theorem unsaid_inj (h : Distinct cfg p) {g g' : Gid} {r r' : Ref} {id : UInt32}
    (hg : ((p x).sess.pc g).unsaid = some (r, id)) (hg' : ((p x).sess.pc g').unsaid = some (r', id)) : g = g' := by
  obtain ⟨hr, hid, hu⟩ := (h.grounded x).inUse_of_unsaid hg
  obtain ⟨hr', hid', hu'⟩ := (h.grounded x).inUse_of_unsaid hg'
  obtain rfl : r = r' := h.apart x hr hr' hu hu' (hid.trans hid'.symm)
  obtain ⟨_, hj⟩ := Session.exists_job_of_unsaid hg
  obtain ⟨_, hj'⟩ := Session.exists_job_of_unsaid hg'
  exact (h.grounded x).offered.opener hj hj'

theorem rcvd_le (h : Distinct cfg p) (hstep : p.step cfg e = some p') (x : Side) :
    (p' x).sess.rcvd <+: (p' x.other).sess.sent := by
  have hle := ((h.carried x.other).step (fun z => (h.grounded z).valid) (fun z => (h.grounded z).locked)
    hstep).rcvd_le_sent
  rwa [Side.other_other] at hle

/-- Neither session moves. -/
theorem of_still (h : Distinct cfg p) (hcarried : ∀ x, Carried cfg p' x) (hsame : ∀ x, (p' x).sess = (p x).sess) :
    Distinct cfg p' := by
  have hann : ∀ x, p'.announced x = p.announced x := fun x => by
    rw [Pair.announced, hsame, hsame, Pair.announced]
  refine ⟨fun x => ?_, fun x => ?_, hcarried, fun x => ?_, fun x => ?_, fun x => ?_, fun {x} => ?_⟩
  · exact hsame x ▸ h.side x
  · exact hsame x ▸ h.grounded x
  · exact hsame x ▸ h.apart x
  · exact hann x ▸ h.nodup x
  · rw [hann, hsame]
    exact h.announced x
  · rw [hann, hsame, hsame]
    exact h.unsaid

section Moved

variable {z : Side} {a : Act}

/-- What the other side has announced arrives. -/
theorem announced_suffix (hv : (p z).sess.Valid) (ht : (p z).sess.Trans a (p' z).sess)
    (hother : (p' z.other).sess = (p z.other).sess) (hrcvd : (p' z).sess.rcvd <+: (p z.other).sess.sent) :
    p'.announced z.other <:+ p.announced z.other := by
  obtain ⟨new, hnew⟩ := ht.rcvd_mono hv
  obtain ⟨more, hmore⟩ := hrcvd
  rw [Pair.announced, Pair.announced, Side.other_other, hother, ← hmore, List.drop_left, ← hnew,
    List.append_assoc, List.drop_left, opensOf_append]
  exact List.suffix_append _ _

/-- The announcement that arrives is the first on the way. -/
theorem announced_head {f : Frame} (hft : f.type = frameStreamOpen) (hr : (p' z).sess.rcvd = (p z).sess.rcvd ++ [f])
    (hother : (p' z.other).sess = (p z.other).sess) (hrcvd : (p' z).sess.rcvd <+: (p z.other).sess.sent) :
    p.announced z.other = f.streamID :: p'.announced z.other := by
  obtain ⟨more, hmore⟩ := hrcvd
  rw [Pair.announced, Pair.announced, Side.other_other, hother, ← hmore, List.drop_left, hr,
    List.append_assoc, List.drop_left, opensOf_append, opensOf_open hft]
  rfl

/-- What this side announces is what it has begun to write. -/
theorem announced_cases (hv : (p z).sess.Valid) (ht : (p z).sess.Trans a (p' z).sess)
    (hother : (p' z.other).sess = (p z.other).sess) (hle : (p z.other).sess.rcvd.length ≤ (p z).sess.sent.length) :
    p'.announced z = p.announced z ∨ ∃ g r id, a = .beginFrame g ∧
      ((p z).sess.pc g).unsaid = some (r, id) ∧ ((p' z).sess.pc g).unsaid = none ∧
      p'.announced z = p.announced z ++ [id] := by
  rcases ht.said hv with hsent | ⟨g, j, rfl, hj, hj', hsent⟩
  · exact .inl (by rw [Pair.announced, hsent, hother, Pair.announced])
  · rw [Pair.announced, hsent, hother, List.drop_append_of_le_length hle, opensOf_append, Job.opensOf_frame]
    cases j with
    | openFrame r id targetPort =>
      exact .inr ⟨g, r, id, rfl, by rw [hj]; rfl, by rw [hj']; rfl, rfl⟩
    | _ => exact .inl (List.append_nil _)

end Moved

/-- **Every careful step keeps it.** -/
theorem step (h : Distinct cfg p) (hcare : p.Careful e) (hstep : p.step cfg e = some p') : Distinct cfg p' := by
  have hcarried : ∀ x, Carried cfg p' x := fun x =>
    (h.carried x).step (fun z => (h.grounded z).valid) (fun z => (h.grounded z).locked) hstep
  obtain ⟨z, hother, hz⟩ := (trans_of_step hstep).sess
  rcases hz with hz | ⟨a, hs, ha, -⟩
  · refine h.of_still hcarried fun x => ?_
    rcases Side.eq_or_eq_other z x with rfl | rfl
    · exact hz
    · exact hother
  have hv := (h.grounded z).valid
  have ht := (Session.trans_of_step hs).2
  have hcareful := hcare.openStream ha
  have hrcvd := hother ▸ h.rcvd_le hstep z
  have harrive : p'.announced z.other <:+ p.announced z.other := announced_suffix hv ht hother hrcvd
  have hsay := announced_cases hv ht hother (h.carried z).rcvd_le_sent.length_le
  refine ⟨fun x => ?_, fun x => ?_, hcarried, fun x => ?_, fun x => ?_, fun x => ?_, fun {x} => ?_⟩
  all_goals rcases Side.eq_or_eq_other z x with rfl | rfl
  · exact (ht.opens hv).1.trans (h.side x)
  · exact hother ▸ h.side z.other
  · exact (h.grounded x).step hs
  · exact hother ▸ h.grounded z.other
  · exact Session.Apart.step (h.apart x) hv ht fun hnew => (h.new_of_step hs hcareful hrcvd hnew).1
  · exact hother ▸ h.apart z.other
  · rcases hsay with hsame | ⟨g, r, id, -, hu, -, happ⟩
    · exact hsame ▸ h.nodup x
    · rw [happ]
      exact List.Nodup.append (h.nodup x) (List.nodup_singleton id)
        (List.disjoint_singleton.mpr (h.unsaid hu).1)
  · exact (h.nodup z.other).sublist harrive.sublist
  · rw [hother]
    intro id hid
    rcases hsay with hsame | ⟨g, r, id', -, hu, -, happ⟩
    · exact h.announced x id (hsame ▸ hid)
    · rw [happ, List.mem_append, List.mem_singleton] at hid
      rcases hid with hid | rfl
      · exact h.announced x id hid
      · exact (h.unsaid hu).2
  · rw [Side.other_other]
    intro id hid
    have hold := harrive.subset hid
    refine h.not_uses_of_step hs hcareful hrcvd (h.mine.1 id hold) (by simpa using h.announced z.other id hold) ?_
    rintro f hft hr rfl
    have hnd := h.nodup z.other
    rw [announced_head hft hr hother hrcvd] at hnd
    exact (List.nodup_cons.mp hnd).1 hid
  · intro g r id hu
    rw [hother]
    rcases ht.unsaid hv hu with hold | ⟨⟨targetPort, rfl⟩, hc, rfl⟩
    · refine ⟨?_, (h.unsaid hold).2⟩
      rcases hsay with hsame | ⟨g', r', id', rfl, hu', hnone, happ⟩
      · exact hsame ▸ (h.unsaid hold).1
      · rw [happ, List.mem_append, List.mem_singleton, not_or]
        refine ⟨(h.unsaid hold).1, fun he => ?_⟩
        subst he
        -- the frame of this id was begun by another goroutine
        rw [h.unsaid_inj hu' hold, hu] at hnone
        cases hnone
    · obtain ⟨huse, hann⟩ := hcareful g targetPort rfl hc
      rcases hsay with hsame | ⟨_, _, _, he, -⟩
      · exact ⟨hsame ▸ hann, huse x.other⟩
      · cases he
  · intro g r id hu
    rw [hother] at hu
    rw [Side.other_other]
    obtain ⟨hann, huse⟩ := h.unsaid hu
    refine ⟨fun hid => hann (harrive.subset hid), ?_⟩
    refine h.not_uses_of_step hs hcareful hrcvd (h.mine.2 g r id hu) (by simpa using huse) ?_
    rintro f hft hr rfl
    exact hann (announced_head hft hr hother hrcvd ▸ List.mem_cons_self)

end Distinct

/-- **Identity.** As long as `OpenStream` takes only ids that are out of use, no entry of a
table is replaced, and `Close` of a stream takes no other stream out of the table and closes
no other stream's `readChan`. -/
theorem careful_keeps_identity {es : List Event} (h : exec (step cfg) newPair es = some p)
    (ha : Along (step cfg) Careful newPair es) (hstep : p.step cfg e = some p') (he : p.Careful e) :
    (∀ x, ¬ (p x).sess.Replaces (p' x).sess) ∧
      ∀ x a, a.At x e → ¬ (p x).sess.EndsOther (p' x).sess a := by
  have hd : Distinct cfg p :=
    exec_inv_along (fun _ _ _ hp hP hstep => hp.step hP hstep) (newPair_distinct cfg) ha h
  obtain ⟨z, hother, hz⟩ := (trans_of_step hstep).sess
  have still : ∀ {x}, (p' x).sess = (p x).sess → ¬ (p x).sess.Replaces (p' x).sess ∧
      ∀ a, ¬ (p x).sess.EndsOther (p' x).sess a := fun {x} hx => by
    rw [hx]
    refine ⟨fun ⟨id, r, r', hl, hl', hne⟩ => hne (Option.some.inj (hl'.symm.trans hl)), fun a hends => ?_⟩
    obtain ⟨_, _, _, -, -, r', -, ⟨id, hl, hgone⟩ | ⟨-, hne⟩⟩ := hends
    · exact hgone hl
    · exact hne rfl
  have moved : ∀ x, (¬ (p x).sess.Replaces (p' x).sess) ∧
      ∀ a, a.At x e → ¬ (p x).sess.EndsOther (p' x).sess a := fun x => by
    rcases Side.eq_or_eq_other z x with rfl | rfl
    · rcases hz with hz | ⟨a, hs, hat, -⟩
      · exact ⟨(still hz).1, fun a _ => (still hz).2 a⟩
      · have hg := hd.grounded x
        refine ⟨hg.valid.not_replaces hs fun hnew =>
          (hd.new_of_step hs (he.openStream hat) (hother ▸ hd.rcvd_le hstep x) hnew).1, fun a' hat' hends => ?_⟩
        obtain ⟨g, id, r, rfl, hrest⟩ := hends
        rw [show e = .act x (.dropEntry g) from hat'] at hat
        obtain rfl := hat.eq_act.2
        exact Session.Apart.not_endsOther (hd.apart x) hg.valid hg.ended hs ⟨g, id, r, rfl, hrest⟩
    · exact ⟨(still hother).1, fun a _ => (still hother).2 a⟩
  exact ⟨fun x => (moved x).1, fun x => (moved x).2⟩

/-- An id that was not given before is out of use. -/
theorem Linked.outOfUse (h : Linked cfg p) (hb : (p x).sess.opens < 2 ^ 31) :
    p.OutOfUse x ((p x).sess.nextStreamID + 2) := by
  have hn := (h.sound x).numbered
  have hnew : ¬ (p x).sess.Own ((p x).sess.nextStreamID + 2) := fun ho => ho.ne_next hn hb rfl
  have hsent : (p x).sess.nextStreamID + 2 ∉ opensOf (p x).sess.sent := fun hm => hnew (hn.sent _ hm)
  refine ⟨fun y hu => ?_, fun hm => hsent ?_⟩
  · obtain ⟨r, hr, hid, -⟩ := hu
    have hs := (h.sound y).numbered.stream r hr
    rw [hid] at hs
    rcases Side.eq_or_eq_other x y with rfl | rfl
    · rcases hs with ho | hm
      · exact hnew ho
      · exact (h.peer y (h.rcvd_le y)).1 _ hm hn.next_mine
    · rcases hs with ho | hm
      · exact not_mine_of_other h.side ho.mine hn.next_mine
      · have hle := (h.carried x).rcvd_le_sent
        exact hsent ((opensOf_mono hle).subset hm)
  · rw [← List.take_append_drop (p x.other).sess.rcvd.length (p x).sess.sent, opensOf_append]
    exact List.mem_append_right _ hm

/-- **Runs in which no id is given twice are careful.** -/
theorem Roomy.careful {es : List Event} (hb : Roomy p) (h : exec (step cfg) newPair es = some p) :
    Along (step cfg) Careful newPair es := by
  refine (along_of_last (I := fun p => (∀ x, (p x).sess.Valid) ∧ (Roomy p → Linked cfg p)) (G := Roomy)
    (fun _ _ _ hp hstep => linked_of_step hp hstep) ?_
    ⟨fun _ => Session.newSession_valid _, fun _ => newPair_linked cfg⟩ h hb).2
  intro p e p' hp hstep hb
  have hb₀ : Roomy p := hb.of_step hp.1 hstep
  refine ⟨hb₀, ?_⟩
  cases e with
  | act x a =>
    cases a with
    | openStream g targetPort =>
      intro hc
      refine (hp.2 hb₀).outOfUse ?_
      have hx := hb x
      cases trans_of_step hstep with
      | act _ hs =>
        rw [run_self] at hx
        cases (Session.trans_of_step hs).2 with
        | openRefused _ hc' => exact absurd (hc.symm.trans hc') Bool.false_ne_true
        | openStream => exact hx
    | _ => trivial
  | _ => trivial

/-! ### Two runs -/

/-- The server opens a stream and closes it, up to `closeStream`'s section under `streamsMu`. -/
def closingRun : List Event := opensStream ++ [.act .server (.closeStream (.app 0) 0)]

/-- Identity, in the step after `closingRun`. -/
theorem closingRun_keeps_identity : ∃ p p', exec (step (sampleConfig 100)) newPair closingRun = some p ∧
    p.step (sampleConfig 100) (.act .server (.dropEntry (.app 0))) = some p' ∧
    ¬ (p .server).sess.EndsOther (p' .server).sess (.dropEntry (.app 0)) := by
  obtain ⟨p, hp, hb, hstep⟩ := exists_of_any (P := fun p : Pair =>
      ((p .server).sess.opens ≤ 2 ^ 31 ∧ (p .client).sess.opens ≤ 2 ^ 31) ∧
        (p.step (sampleConfig 100) (.act .server (.dropEntry (.app 0)))).isSome = true)
    (show (exec (step (sampleConfig 100)) newPair closingRun).any _ = true by decide +kernel)
  obtain ⟨p', hp'⟩ := Option.isSome_iff_exists.mp hstep
  have hroomy : Roomy p := fun x => by
    cases x with
    | server => exact hb.1
    | client => exact hb.2
  exact ⟨p, p', hp, hp', (careful_keeps_identity hp (hroomy.careful hp) hp' trivial).2 .server _ rfl⟩

/-- The server's goroutine writes a frame in vain. -/
def failsToWrite : List Event :=
  [.act .server (.lock (.app 0)), .beginFrame .server (.app 0) plainDraws, .endFrame .server (.app 0) false]

/-- `OpenStream` at the server returns an error. -/
def failsToOpen : List Event :=
  .act .server (.openStream (.app 0) []) :: failsToWrite ++ .act .server (.dropEntry (.app 0)) :: failsToWrite

/-- The server opens a stream, its connection breaks, and it tries 2³¹ – 1 times more. -/
def wrappedRun : List Event :=
  opensStream ++ .cut .server :: (List.replicate (2 ^ 31 - 1) failsToOpen).flatten

/-- The server with the stream 0 open, after `OpenStream` has failed `k` times. -/
structure Retrying (p : Pair) (k : ℕ) : Prop where
  panic : (p .server).sess.panic = none
  pc : (p .server).sess.pc (.app 0) = .idle
  writeMu : (p .server).sess.writeMu = none
  closed : (p .server).sess.closed = false
  nextStreamID : (p .server).sess.nextStreamID = UInt32.ofNat (3 + 2 * k)
  entry : (p .server).sess.streams.lookup 3 = some 0
  cut : (p .server).cut = true

/-- A `WriteFrame` of the job has failed, under `writeMu`. -/
def unwritten (s : Session) (j : Job) : Session := ((s.acquire (.app 0) j).beginWrite (.app 0) j).endWrite (.app 0) j false

theorem unwritten_openFrame (s : Session) (r : Ref) (id : UInt32) (targetPort : List UInt8) :
    ∃ pc ret sent, unwritten s (.openFrame r id targetPort) =
        { s with writeMu := none, pc := pc, ret := ret, sent := sent, writeFailed := true } ∧
      pc (.app 0) = .closing id .openFailed := by
  refine ⟨(unwritten s (.openFrame r id targetPort)).pc, (unwritten s (.openFrame r id targetPort)).ret,
    (unwritten s (.openFrame r id targetPort)).sent, ?_, Session.goto_self _ _⟩
  simp [unwritten, Session.endWrite, Session.release, Session.goto, Session.beginWrite, Session.acquire]

theorem unwritten_closeFrame (s : Session) (id : UInt32) :
    ∃ pc ret sent, unwritten s (.closeFrame id .openFailed) =
        { s with writeMu := none, pc := pc, ret := ret, sent := sent, writeFailed := true } ∧ pc (.app 0) = .idle := by
  refine ⟨(unwritten s (.closeFrame id .openFailed)).pc, (unwritten s (.closeFrame id .openFailed)).ret,
    (unwritten s (.closeFrame id .openFailed)).sent, ?_, ?_⟩ <;>
  simp [unwritten, Session.endWrite, Session.release, Session.goto, Session.beginWrite, Session.acquire,
    Session.closeReturn, Session.answer]

/-- Writing a frame without data on a connection that is cut. -/
theorem exec_failsToWrite {n : ℕ} {j : Job} (hpanic : (p .server).sess.panic = none)
    (hpc : (p .server).sess.pc (.app 0) = .waitMu j) (hmu : (p .server).sess.writeMu = none)
    (hcut : (p .server).cut = true) (hj : j.frame.payload = [])
    (hwants : ∀ s : Session, s.wants j = true) :
    ∃ p', exec (step (sampleConfig n)) p failsToWrite = some p' ∧ (p' .server).cut = true ∧
      (p' .server).sess = unwritten (p .server).sess j := by
  have hlen : j.frame.payload.length < 2 ^ 32 - 76 := by
    rw [hj]
    decide
  set s₁ := (p .server).sess.acquire (.app 0) j with hs₁
  have hpc₁ : s₁.pc (.app 0) = .locked j := by
    rw [hs₁]
    cases j <;> simp [Session.acquire, Session.modify]
  have hpanic₁ : s₁.panic = none := by
    rw [← hpanic, hs₁]
    cases j <;> rfl
  set p₁ : Pair := p.run .server s₁ with hp₁
  set s₂ := s₁.beginWrite (.app 0) j
  set p₂ : Pair := p₁.emit (sampleConfig n) .server ⟨j.frame, false, plainDraws, hlen⟩ s₂ with hp₂
  have hpc₂ : s₂.pc (.app 0) = .writing j := by simp [s₂, Session.beginWrite]
  have h₁ : p.step (sampleConfig n) (.act .server (.lock (.app 0))) = some p₁ := by
    simp [step, Act.Local, Session.step, Session.act, hpanic, hpc, hmu, p₁, hs₁]
  have h₂ : p₁.step (sampleConfig n) (.beginFrame .server (.app 0) plainDraws) = some p₂ := by
    have hlock : (p₁ .server).sess.pc (.app 0) = .locked j := by rw [hp₁, run_self]; exact hpc₁
    have hbegin : (p₁ .server).sess.step (.beginFrame (.app 0)) = some s₂ := by
      simp [p₁, Session.step, Session.act, hpanic₁, hpc₁, hwants, s₂]
    simp only [step, hlock, hlen, ↓reduceDIte, hbegin, Option.map_some, hp₂]
    rfl
  have h₃ : p₂.step (sampleConfig n) (.endFrame .server (.app 0) false) =
      some (p₂.finish .server false (s₂.endWrite (.app 0) j false)) := by
    have hpending : (p₂ .server).pending ≠ [] := by rw [hp₂, emit_self]; exact WriteCall.bytes_ne_nil _ _
    have hfaulty : p₂.Faulty .server := .inl (by rw [hp₂, emit_self, hp₁, run_self]; exact hcut)
    have hend : (p₂ .server).sess.step (.endFrame (.app 0) false) = some (s₂.endWrite (.app 0) j false) := by
      have hpanic₂ : s₂.panic = none := hpanic₁
      simp [hp₂, Session.step, Session.act, hpanic₂, hpc₂]
    simp [step, hpending, hfaulty, hend]
  refine ⟨p₂.finish .server false (s₂.endWrite (.app 0) j false), ?_, by simp, by rw [finish_self]; rfl⟩
  exact exec_cons_eq_some.mpr ⟨p₁, h₁, exec_cons_eq_some.mpr ⟨p₂, h₂, exec_cons_eq_some.mpr ⟨_, h₃, rfl⟩⟩⟩

/-- Once more. -/
theorem Retrying.again {n k : ℕ} (h : Retrying p k) (hk : k + 1 < 2 ^ 31) :
    ∃ p', exec (step (sampleConfig n)) p failsToOpen = some p' ∧ Retrying p' (k + 1) := by
  obtain ⟨hpanic, hpc, hmu, hclosed, hnext, hentry, hcut⟩ := h
  set s := (p .server).sess
  set id := s.nextStreamID + 2 with hid
  have hne : (3 : UInt32) ≠ id := by
    rw [hid, hnext]
    intro he
    have hnat := congrArg UInt32.toNat he
    rw [UInt32.toNat_add, UInt32.toNat_ofNat'] at hnat
    simp only [UInt32.reduceToNat] at hnat
    omega
  -- the stream is registered, and its frame is not written
  have h₁ : p.step (sampleConfig n) (.act .server (.openStream (.app 0) [])) =
      some (p.run .server (s.register (.app 0) [])) := by
    simp [step, Act.Local, Session.step, Session.act, hpanic, hpc, hclosed, s]
  obtain ⟨p₂, h₂, hcut₂, hs₂⟩ := exec_failsToWrite (n := n) (p := p.run .server (s.register (.app 0) []))
    (j := .openFrame s.fresh id []) (by simpa [Session.register, Session.enter, Session.goto] using hpanic)
    (by simp [Session.register, id]) (by simpa [Session.register, Session.enter, Session.goto] using hmu)
    (by simpa using hcut) rfl fun _ => rfl
  obtain ⟨pc, ret, sent, hun, hpc₂⟩ := unwritten_openFrame (s.register (.app 0) []) s.fresh id []
  rw [run_self, hun] at hs₂
  -- `closeStream` takes it out again
  set t := (p₂ .server).sess
  have hheap₂ : t.heap s.fresh = newStream id [] s.rcvd.length := by
    rw [hs₂]
    exact Session.enter_self (s := s) id []
  have hlookup : t.streams.lookup id = some s.fresh := by rw [hs₂]; exact AList.lookup_insert _
  set u := { t.modify s.fresh (·.endedBy (.closeStream .openFailed)) with streams := t.streams.erase id }
  have hdrop : t.drop id s.fresh (.closeStream .openFailed) = u := by
    simp [Session.drop, Session.closeChan, hheap₂, newStream, u]
  have hpc₂' : t.pc (.app 0) = .closing id .openFailed := by rw [hs₂]; exact hpc₂
  have hpanic₂ : t.panic = none := by rw [hs₂]; exact hpanic
  have hmu₂ : t.writeMu = none := by rw [hs₂]
  have h₃ : p₂.step (sampleConfig n) (.act .server (.dropEntry (.app 0))) =
      some (p₂.run .server (u.goto (.app 0) (.waitMu (.closeFrame id .openFailed)))) := by
    simp [step, Act.Local, Session.step, Session.act, hpanic₂, hpc₂', hlookup, hdrop, t]
  obtain ⟨p₄, h₄, hcut₄, hs₄⟩ := exec_failsToWrite (n := n) (j := .closeFrame id .openFailed)
    (p := p₂.run .server (u.goto (.app 0) (.waitMu (.closeFrame id .openFailed))))
    (by rw [run_self]; exact hpanic₂) (by rw [run_self]; exact Session.goto_self _ _)
    (by rw [run_self]; exact hmu₂) (by simpa using hcut₂) rfl fun _ => rfl
  obtain ⟨pc', ret', sent', hun', hpc₄⟩ :=
    unwritten_closeFrame (u.goto (.app 0) (.waitMu (.closeFrame id .openFailed))) id
  rw [run_self, hun'] at hs₄
  refine ⟨p₄, exec_cons_eq_some.mpr ⟨_, h₁, exec_append_eq_some.mpr ⟨p₂, h₂, exec_cons_eq_some.mpr ⟨_, h₃, h₄⟩⟩⟩,
    ⟨?_, ?_, ?_, ?_, ?_, ?_, hcut₄⟩⟩
  all_goals rw [hs₄]
  · exact hpanic₂
  · exact hpc₄
  · show t.closed = false
    rw [hs₂]
    exact hclosed
  · show t.nextStreamID = _
    rw [hs₂]
    show s.nextStreamID + 2 = _
    rw [hnext, Nat.mul_succ, ← Nat.add_assoc, UInt32.ofNat_add (3 + 2 * k) 2]
    rfl
  · show (t.streams.erase id).lookup 3 = some 0
    rw [AList.lookup_erase_ne hne, hs₂]
    exact (AList.lookup_insert_ne hne).trans hentry

theorem Retrying.exec_replicate {n k : ℕ} (m : ℕ) : ∀ {p : Pair}, Retrying p k → k + m < 2 ^ 31 →
    ∃ p', exec (step (sampleConfig n)) p (List.replicate m failsToOpen).flatten = some p' ∧ Retrying p' (k + m) := by
  induction m generalizing k with
  | zero => exact fun h _ => ⟨_, rfl, h⟩
  | succ m ih =>
    intro p h hm
    obtain ⟨t, ht, hretry⟩ := h.again (n := n) (by omega)
    obtain ⟨p', hp', hlast⟩ := ih hretry (by omega)
    refine ⟨p', exec_append_eq_some.mpr ⟨t, ht, hp'⟩, ?_⟩
    rwa [Nat.add_right_comm, Nat.add_assoc] at hlast

/-- **The id comes round.** The next `OpenStream` after `wrappedRun` gives its stream the id 3
and replaces the entry of the stream 0. -/
theorem wrappedRun_replaces : ∃ p p', exec (step (sampleConfig 100)) newPair wrappedRun = some p ∧
    p.step (sampleConfig 100) (.act .server (.openStream (.app 0) [])) = some p' ∧
    (p .server).sess.Replaces (p' .server).sess := by
  obtain ⟨p₀, h₀, hretry⟩ := exists_of_any (P := fun p : Pair => (p .server).sess.panic = none ∧
      (p .server).sess.pc (.app 0) = .idle ∧ (p .server).sess.writeMu = none ∧ (p .server).sess.closed = false ∧
      (p .server).sess.nextStreamID = UInt32.ofNat (3 + 2 * 0) ∧ (p .server).sess.streams.lookup 3 = some 0)
    (show (exec (step (sampleConfig 100)) newPair opensStream).any _ = true by decide +kernel)
  obtain ⟨hpanic, hpc, hmu, hclosed, hnext, hentry⟩ := hretry
  have hcut : Retrying (p₀.put .server { p₀ .server with cut := true }) 0 := by
    refine ⟨?_, ?_, ?_, ?_, ?_, ?_, ?_⟩ <;> rw [put_self]
    all_goals assumption
  obtain ⟨p, hp, hlast⟩ := hcut.exec_replicate (n := 100) (2 ^ 31 - 1) (by omega)
  have hrun : exec (step (sampleConfig 100)) newPair wrappedRun = some p :=
    exec_append_eq_some.mpr ⟨p₀, h₀, exec_cons_eq_some.mpr ⟨_, rfl, hp⟩⟩
  have hv := exec_newPair_sess Session.newSession_valid Session.Valid.step hrun .server
  rw [Nat.zero_add] at hlast
  set s := (p .server).sess
  have hid : s.nextStreamID + 2 = 3 := by
    rw [hlast.nextStreamID]
    decide
  refine ⟨p, p.run .server (s.register (.app 0) []), hrun, ?_, 3, 0, s.fresh, hlast.entry, ?_, ?_⟩
  · simp [step, Act.Local, Session.step, Session.act, hlast.panic, hlast.pc, hlast.closed, s]
  · rw [run_self, ← hid]
    exact AList.lookup_insert _
  · exact (hv.entry hlast.entry).1.ne'

end Pair

end Hawal.Mux
