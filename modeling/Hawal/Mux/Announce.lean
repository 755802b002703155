import Hawal.Mux.Sending

/-!
# Stream ids and open frames

* `Numbered` — the ids that `OpenStream` gives count up in twos from the start of the
  session's side (`Own`); every stream has such an id or one that the peer announced.
* `Announced` — data is written for a stream only after its `FrameStreamOpen` was
  written, or has arrived.
* `Opening` — when no two streams of the session have one id, no id is announced twice.
-/

namespace Hawal.Mux

open Hawal.Lib Hawal.Transport

/-- The ids that a list of frames announces. -/
def opensOf (fs : List Frame) : List UInt32 := (fs.filter (·.type = frameStreamOpen)).map Frame.streamID

@[simp] theorem opensOf_nil : opensOf [] = [] := rfl

@[simp] theorem opensOf_append (fs gs : List Frame) : opensOf (fs ++ gs) = opensOf fs ++ opensOf gs := by
  simp [opensOf]

theorem opensOf_open {f : Frame} (h : f.type = frameStreamOpen) : opensOf [f] = [f.streamID] := by
  simp [opensOf, h]

theorem mem_opensOf {id : UInt32} {fs : List Frame} :
    id ∈ opensOf fs ↔ ∃ f ∈ fs, f.type = frameStreamOpen ∧ f.streamID = id := by simp [opensOf, and_assoc]

theorem opensOf_mono {fs gs : List Frame} (h : fs <+: gs) : opensOf fs <+: opensOf gs := by
  obtain ⟨hs, rfl⟩ := h
  rw [opensOf_append]
  exact List.prefix_append _ _

/-- Of the jobs only `Write`'s sends data. -/
theorem Job.exists_of_frame_data {j : Job} (h : j.frame.type = frameData) :
    ∃ r id data offset, j = .data r id data offset := by
  cases j with
  | data r id data offset => exact ⟨r, id, data, offset, rfl⟩
  | _ => exact absurd h (by simp [Job.frame, frameData, frameStreamOpen, frameStreamClose, framePong, framePing])

/-- Of the jobs only `OpenStream`'s announces an id. -/
theorem Job.opensOf_frame (j : Job) :
    opensOf [j.frame] = match j with
      | .openFrame _ id _ => [id]
      | _ => [] := by
  cases j <;> simp [opensOf, Job.frame, frameStreamOpen, frameStreamClose, frameData, framePong, framePing]

/-- The stream, with its id, whose open frame is still to be written. -/
def Pc.unsaid : Pc → Option (Ref × UInt32)
  | .waitMu (.openFrame r id _) => some (r, id)
  | .locked (.openFrame r id _) => some (r, id)
  | _ => none

theorem Pc.stream_of_unsaid {p : Pc} {x : Ref × UInt32} (h : p.unsaid = some x) : p.stream = some x := by
  cases p with
  | waitMu j => cases j <;> simp_all [Pc.unsaid, Pc.stream, Job.stream]
  | locked j => cases j <;> simp_all [Pc.unsaid, Pc.stream, Job.stream]
  | _ => simp_all [Pc.unsaid]

theorem Pc.Free.unsaid_eq_none {p : Pc} (h : p.Free) : p.unsaid = none := by
  cases p with
  | waitMu j => cases j <;> simp_all [Pc.Free, Pc.unsaid, Job.stream]
  | locked j => exact h.elim
  | _ => rfl

namespace Session

variable {s s' : Session}

/-- Where the ids of a side start. -/
def base (s : Session) : ℕ := if s.isServer then 1 else 2

/-- The id of the `k`-th stream that `OpenStream` registers. -/
def own (s : Session) (k : ℕ) : UInt32 := UInt32.ofNat (s.base + 2 * k)

/-- An id that `OpenStream` has given. -/
def Own (s : Session) (id : UInt32) : Prop := ∃ k, 1 ≤ k ∧ k ≤ s.opens ∧ id = s.own k

/-- **Where ids come from.** -/
structure Numbered (s : Session) : Prop where
  next : s.nextStreamID = s.own s.opens
  stream : ∀ r < s.fresh, s.Own (s.heap r).id ∨ (s.heap r).id ∈ opensOf s.rcvd
  opening : ∀ {g r id targetPort}, (s.pc g).job = some (.openFrame r id targetPort) → s.Own id
  sent : ∀ id ∈ opensOf s.sent, s.Own id

theorem newSession_numbered (isServer : Bool) : (newSession isServer).Numbered where
  next := by cases isServer <;> rfl
  stream r hr := by simp [newSession] at hr
  opening {g r id targetPort} h := by cases g <;> simp [newSession, Gid.start, Pc.job] at h
  sent id h := by simp [newSession] at h

namespace Numbered

theorem goto (h : s.Numbered) {g : Gid} {p : Pc}
    (hp : ∀ {r id targetPort}, p.job = some (.openFrame r id targetPort) → s.Own id) :
    (s.goto g p).Numbered where
  next := h.next
  stream := h.stream
  opening {g' r id targetPort} hj := by
    by_cases hg : g' = g
    · subst hg
      rw [goto_self] at hj
      exact hp hj
    · rw [goto_of_ne p hg] at hj
      exact h.opening hj
  sent := h.sent

/-- The fields that are not about ids. -/
theorem set {streams acc mu closed once conn ret panic failed} (h : s.Numbered) :
    { s with
      streams := streams, acceptChan := acc, writeMu := mu, closed := closed, closeOnce := once
      connClosed := conn, ret := ret, panic := panic, writeFailed := failed : Session }.Numbered :=
  ⟨h.next, h.stream, h.opening, h.sent⟩

theorem answer (h : s.Numbered) (g : Gid) (v : Ret) : (s.answer g v).Numbered :=
  (h.goto (g := g) (p := .idle) fun h => nomatch h).set

theorem modify (h : s.Numbered) {r : Ref} {f : Stream → Stream} (hf : (f (s.heap r)).id = (s.heap r).id) :
    (s.modify r f).Numbered where
  next := h.next
  stream r' hr' := by
    by_cases hr : r' = r
    · subst hr
      rw [modify_self, hf]
      exact h.stream r' hr'
    · rw [modify_of_ne f hr]
      exact h.stream r' hr'
  opening := h.opening
  sent := h.sent

theorem heard (h : s.Numbered) (f : Frame) : (s.heard f).Numbered where
  next := h.next
  stream r hr := (h.stream r hr).imp_right fun hm =>
    (opensOf_mono (List.prefix_append s.rcvd [f])).subset hm
  opening := h.opening
  sent := h.sent

/-- `OpenStream` gives the next id. -/
theorem register (h : s.Numbered) (g : Gid) (targetPort : List UInt8) :
    (s.register g targetPort).Numbered := by
  have hnext : s.nextStreamID + 2 = s.own (s.opens + 1) := by
    rw [h.next, own, own, Nat.mul_succ, ← Nat.add_assoc, UInt32.ofNat_add (s.base + 2 * s.opens)]
    rfl
  have hmono : ∀ {id}, s.Own id → (s.register g targetPort).Own id :=
    fun ⟨k, h1, hk, hid⟩ => ⟨k, h1, Nat.le_succ_of_le hk, hid⟩
  have hnew : (s.register g targetPort).Own (s.nextStreamID + 2) :=
    ⟨s.opens + 1, Nat.le_add_left 1 _, le_rfl, hnext⟩
  refine ⟨hnext, fun r hr => ?_, fun {g' r id tp} hj => ?_, fun id hid => hmono (h.sent id hid)⟩
  · by_cases hf : r = s.fresh
    · subst hf
      exact .inl ((congrArg Stream.id (enter_self (s := s) _ targetPort)).symm ▸ hnew)
    · have hid := congrArg Stream.id (enter_of_ne (s := s) (s.nextStreamID + 2) targetPort hf)
      have hlt : r < s.fresh := Nat.lt_of_le_of_ne (Nat.le_of_lt_succ hr) hf
      exact (h.stream r hlt).elim (fun ho => .inl (hid.symm ▸ hmono ho)) fun hm => .inr (hid.symm ▸ hm)
  · by_cases hg : g' = g
    · subst hg
      simp only [Session.register, goto_self, Pc.job, Option.some.injEq, Job.openFrame.injEq] at hj
      exact hj.2.1 ▸ hnew
    · simp only [Session.register, goto_of_ne _ hg] at hj
      exact hmono (h.opening (g := g') hj)

/-- A stream is entered that the peer announced. -/
theorem enter (h : s.Numbered) {id : UInt32} (hid : id ∈ opensOf s.rcvd) (targetPort : List UInt8) :
    (s.enter id targetPort).Numbered where
  next := h.next
  stream r hr := by
    by_cases hf : r = s.fresh
    · subst hf
      rw [enter_self]
      exact .inr hid
    · rw [enter_of_ne id targetPort hf]
      exact h.stream r (Nat.lt_of_le_of_ne (Nat.le_of_lt_succ hr) hf)
  opening := h.opening
  sent := h.sent

theorem closeReturn (h : s.Numbered) (g : Gid) (why : Closer) : (s.closeReturn g why).Numbered := by
  cases why with
  | pushTimeout => exact h.goto fun h => nomatch h
  | acceptOverflow => exact h.goto fun h => nomatch h
  | openFailed => exact h.answer g _
  | streamClose r => exact (h.modify (f := ({ · with closeOnce := .done })) (r := r) rfl).answer g _

theorem acquire (h : s.Numbered) {g : Gid} {j : Job} (hg : s.pc g = .waitMu j) : (s.acquire g j).Numbered := by
  have hgo : (s.goto g (.locked j)).Numbered := h.goto fun hj => h.opening (g := g) (by rw [hg]; exact hj)
  cases j with
  | data r id data offset =>
    exact hgo.set.modify (r := r) (f := fun st => { st with put := st.put ++ data }) rfl
  | _ => exact hgo.set

theorem beginWrite (h : s.Numbered) {g : Gid} {j : Job} (hg : s.pc g = .locked j) :
    (s.beginWrite g j).Numbered := by
  have hgo : (s.goto g (.writing j)).Numbered := h.goto fun hj => h.opening (g := g) (by rw [hg]; exact hj)
  refine ⟨hgo.next, hgo.stream, hgo.opening, fun id hid => ?_⟩
  unfold Session.beginWrite at hid
  dsimp only at hid
  split_ifs at hid with hw
  · exact h.sent id hid
  · rw [opensOf_append, List.mem_append, Job.opensOf_frame] at hid
    rcases hid with hid | hid
    · exact h.sent id hid
    · cases j with
      | openFrame r id' targetPort =>
        have hj : (s.pc g).job = some (.openFrame r id' targetPort) := by rw [hg]; rfl
        have ho : s.Own id' := h.opening hj
        exact List.mem_singleton.mp hid ▸ ho
      | _ => exact nomatch hid

theorem endWrite (h : s.Numbered) (g : Gid) (j : Job) (ok : Bool) : (s.endWrite g j ok).Numbered := by
  have hw : { s with writeFailed := s.writeFailed || !ok }.Numbered := h.set
  have hr : { s with writeFailed := s.writeFailed || !ok }.release.Numbered := h.set
  cases j with
  | openFrame r id targetPort =>
    cases ok with
    | true => exact (hr.modify (r := r) (f := ({ · with handed := true })) rfl).answer g _
    | false => exact hr.goto fun h => nomatch h
  | closeFrame id why => exact hr.closeReturn g why
  | data r id data offset =>
    cases ok with
    | true => exact hw.goto fun h => nomatch h
    | false => exact hr.answer g _
  | pong => exact hr.goto fun h => nomatch h
  | ping => exact hr.goto fun h => nomatch h

theorem giveUp (h : s.Numbered) (g : Gid) (j : Job) : (s.giveUp g j).Numbered := by
  have hr : s.release.Numbered := h.set
  cases j with
  | data r id data offset => exact hr.answer g _
  | _ => exact hr.goto fun h => nomatch h

theorem dispatch (h : s.Numbered) (hv : s.Valid) (f : Frame) : (s.dispatch f).Numbered := by
  have hv' : (s.heard f).Valid := ⟨hv.entry, hv.works, hv.queued, hv.handed, hv.queue⟩
  rcases s.dispatch_cases f with ⟨ht, hf⟩ | ⟨r, -, hl, hf⟩ | ⟨r, -, hl, hf⟩ | ⟨-, hf⟩ | ⟨-, -, -, hf⟩
  all_goals rw [hf]
  · have hid : f.streamID ∈ opensOf (s.heard f).rcvd := by
      rw [Session.heard, opensOf_append, opensOf_open ht]
      exact List.mem_append_right _ (List.mem_singleton.mpr rfl)
    exact ((h.heard f).enter hid f.payload).goto fun h => nomatch h
  · exact (h.heard f).goto fun h => nomatch h
  · rw [hv'.drop_eq hl]
    have hm := (h.heard f).modify (r := r) (f := (·.endedBy .peerClose)) rfl
    exact hm.set
  · exact (h.heard f).goto fun h => nomatch h
  · exact h.heard f

theorem quiet (h : s.Numbered) (hq : s.Quiet s') : s'.Numbered := by
  have hown : ∀ {id}, s.Own id → s'.Own id := fun ⟨k, h1, hk, hid⟩ =>
    ⟨k, h1, hq.opens ▸ hk, by rw [own, base, hq.isServer]; exact hid⟩
  have hid : ∀ r, (s'.heap r).id = (s.heap r).id := fun r => congrArg Prod.fst (hq.outbox r)
  refine ⟨?_, fun r hr => ?_, fun {g r id targetPort} hj => ?_, fun id hm => hown (h.sent id (hq.sent ▸ hm))⟩
  · rw [hq.nextStreamID, h.next, own, own, base, base, hq.isServer, hq.opens]
  · rw [hid, hq.rcvd]
    exact (h.stream r (hq.fresh ▸ hr)).imp_left hown
  · rcases hq.pc g with hg | ⟨hfree, -⟩
    · exact hown (h.opening (g := g) (hg ▸ hj))
    · exact nomatch hfree.stream_eq_none hj

theorem step {a : Act} (h : s.Numbered) (hv : s.Valid) (hs : s.step a = some s') : s'.Numbered := by
  cases (trans_of_step hs).2.sends hv with
  | quiet hq => exact h.quiet hq
  | openStream => exact h.register _ _
  | @acceptStream g r =>
    exact ((h.modify (r := r) (f := ({ · with handed := true })) rfl).set.answer g _)
  | write => exact h.goto fun h => nomatch h
  | lock hg => exact h.acquire hg
  | beginFrame hg => exact h.beginWrite hg
  | endFrame => exact h.endWrite _ _ _
  | unlock => exact h.giveUp _ _
  | recv => exact h.dispatch hv _
  | enqueue => exact (h.goto (g := .readLoop) (p := .read) fun h => nomatch h).set
  | closeStreams =>
    rw [hv.closeStreams_eq]
    refine ⟨h.next, fun r hr => ?_, h.opening, h.sent⟩
    have hid : (if s.streams.lookup (s.heap r).id = some r then (s.heap r).endedBy .sessionClose
      else s.heap r).id = (s.heap r).id := by split <;> rfl
    exact hid ▸ h.stream r hr

end Numbered

/-! ### Data comes after its open frame -/

/-- The id was announced by one side or the other. -/
def Known (s : Session) (id : UInt32) : Prop := id ∈ opensOf s.sent ∨ id ∈ opensOf s.rcvd

/-- **Data comes after its open frame**, and is of a stream of the session. -/
structure Announced (s : Session) : Prop where
  begun : ∀ {g j}, s.pc g = .writing j → s.writeFailed = false → j.frame ∈ s.sent
  accepting : ∀ {g r id}, s.pc g = .accept r id → id ∈ opensOf s.rcvd
  queued : ∀ {r}, r ∈ s.acceptChan.buf → (s.heap r).id ∈ opensOf s.rcvd
  handed : ∀ {r}, (s.heap r).handed = true → s.writeFailed = false → s.Known (s.heap r).id
  job : ∀ {g r id data offset}, (s.pc g).job = some (.data r id data offset) → s.writeFailed = false →
    s.Known id
  after : ∀ {n f}, s.sent[n]? = some f → f.type = frameData →
    f.streamID ∈ opensOf (s.sent.take n) ∨ f.streamID ∈ opensOf s.rcvd
  owner : ∀ {f}, f ∈ s.sent → f.type = frameData → ∃ r < s.fresh, (s.heap r).id = f.streamID

theorem newSession_announced (isServer : Bool) : (newSession isServer).Announced where
  begun {g j} h := by cases g <;> simp [newSession, Gid.start] at h
  accepting {g r id} h := by cases g <;> simp [newSession, Gid.start] at h
  queued h := by simp [newSession] at h
  handed h := by simp [newSession, newStream] at h
  job {g r id data offset} h := by cases g <;> simp [newSession, Gid.start, Pc.job] at h
  after h := by simp [newSession] at h
  owner h := by simp [newSession] at h

namespace Announced

theorem goto (h : s.Announced) {g : Gid} {p : Pc}
    (hw : ∀ {j}, p = .writing j → s.writeFailed = false → j.frame ∈ s.sent)
    (ha : ∀ {r id}, p = .accept r id → id ∈ opensOf s.rcvd)
    (hj : ∀ {r id data offset}, p.job = some (.data r id data offset) → s.writeFailed = false → s.Known id) :
    (s.goto g p).Announced where
  begun {g' j} hg' := by
    by_cases hg : g' = g
    · subst hg
      exact hw (by rwa [goto_self] at hg')
    · exact h.begun (by rwa [goto_of_ne p hg] at hg')
  accepting {g' r id} hg' := by
    by_cases hg : g' = g
    · subst hg
      exact ha (by rwa [goto_self] at hg')
    · exact h.accepting (by rwa [goto_of_ne p hg] at hg')
  queued := h.queued
  handed := h.handed
  job {g' r id data offset} hg' := by
    by_cases hg : g' = g
    · subst hg
      exact hj (by rwa [goto_self] at hg')
    · exact h.job (by rwa [goto_of_ne p hg] at hg')
  after := h.after
  owner := h.owner

theorem goto_free (h : s.Announced) {g : Gid} {p : Pc} (hp : p.Free) : (s.goto g p).Announced :=
  h.goto (fun hw => (hw ▸ hp : (Pc.writing _).Free).elim) (fun ha => (ha ▸ hp : (Pc.accept _ _).Free).elim)
    fun hj => nomatch hp.stream_eq_none hj

/-- The fields that are not about frames; a write may fail. -/
theorem set {next streams mu closed once conn ret panic opens failed} (h : s.Announced)
    (hf : failed = false → s.writeFailed = false) :
    { s with
      nextStreamID := next, streams := streams, writeMu := mu, closed := closed, closeOnce := once
      connClosed := conn, ret := ret, panic := panic, opens := opens, writeFailed := failed : Session }.Announced :=
  ⟨fun hg hw => h.begun hg (hf hw), h.accepting, h.queued, fun hh hw => h.handed hh (hf hw),
    fun hj hw => h.job hj (hf hw), h.after, h.owner⟩

theorem queue {c : Chan Ref} (h : s.Announced) (hc : ∀ r ∈ c.buf, (s.heap r).id ∈ opensOf s.rcvd) :
    { s with acceptChan := c }.Announced :=
  ⟨h.begun, h.accepting, fun hr => hc _ hr, h.handed, h.job, h.after, h.owner⟩

theorem answer (h : s.Announced) (g : Gid) (v : Ret) : (s.answer g v).Announced :=
  (h.goto_free (g := g) (p := .idle) trivial).set id

theorem modify (h : s.Announced) {r : Ref} {f : Stream → Stream} (hid : (f (s.heap r)).id = (s.heap r).id)
    (hh : (f (s.heap r)).handed = true → s.writeFailed = false → s.Known (s.heap r).id) :
    (s.modify r f).Announced := by
  have hids : ∀ r', ((s.modify r f).heap r').id = (s.heap r').id := fun r' => by
    by_cases hr : r' = r
    · subst hr
      rw [modify_self, hid]
    · rw [modify_of_ne f hr]
  refine ⟨h.begun, h.accepting, fun {r'} hr => ?_, fun {r'} hr hw => ?_, h.job, h.after, fun {f'} hf ht => ?_⟩
  · rw [hids r']
    exact h.queued hr
  · rw [hids r']
    by_cases hr' : r' = r
    · subst hr'
      exact hh (by rwa [modify_self] at hr) hw
    · exact h.handed (by rwa [modify_of_ne f hr'] at hr) hw
  · obtain ⟨r', hlt, hr'⟩ := h.owner hf ht
    exact ⟨r', hlt, (hids r').trans hr'⟩

theorem heard (h : s.Announced) (f : Frame) : (s.heard f).Announced := by
  have hmono : ∀ {id}, id ∈ opensOf s.rcvd → id ∈ opensOf (s.heard f).rcvd :=
    fun hm => (opensOf_mono (List.prefix_append s.rcvd [f])).subset hm
  exact ⟨h.begun, fun hg => hmono (h.accepting hg), fun hr => hmono (h.queued hr),
    fun hh hw => (h.handed hh hw).imp_right hmono, fun hj hw => (h.job hj hw).imp_right hmono,
    fun hn ht => (h.after hn ht).imp_right hmono, h.owner⟩

theorem enter (h : s.Announced) (hv : s.Valid) (id : UInt32) (targetPort : List UInt8) :
    (s.enter id targetPort).Announced := by
  have hold : ∀ {r}, r < s.fresh → (s.enter id targetPort).heap r = s.heap r :=
    fun hr => enter_of_ne id targetPort hr.ne
  refine ⟨h.begun, h.accepting, fun {r} hr => ?_, fun {r} hh hw => ?_, h.job, h.after, fun {f} hf ht => ?_⟩
  · rw [hold (hv.queued hr)]
    exact h.queued hr
  · by_cases hr : r = s.fresh
    · subst hr
      rw [enter_self] at hh
      exact nomatch hh
    · rw [enter_of_ne id targetPort hr] at hh ⊢
      exact h.handed hh hw
  · obtain ⟨r, hlt, hr⟩ := h.owner hf ht
    exact ⟨r, Nat.lt_succ_of_lt hlt, by rw [hold hlt, hr]⟩

theorem closeReturn (h : s.Announced) (g : Gid) (why : Closer) : (s.closeReturn g why).Announced := by
  cases why with
  | pushTimeout => exact h.goto_free trivial
  | acceptOverflow => exact h.goto_free trivial
  | openFailed => exact h.answer g _
  | streamClose r =>
    exact (h.modify (r := r) (f := ({ · with closeOnce := .done })) rfl fun hh => h.handed hh).answer g _

theorem acquire (h : s.Announced) {g : Gid} {j : Job} (hg : s.pc g = .waitMu j) : (s.acquire g j).Announced := by
  have hgo : (s.goto g (.locked j)).Announced :=
    h.goto (fun h => nomatch h) (fun h => nomatch h) fun hj => h.job (g := g) (by rw [hg]; exact hj)
  cases j with
  | data r id data offset =>
    exact (hgo.set fun h => h).modify (r := r)
      (f := fun st => { st with put := st.put ++ data }) rfl fun hh => h.handed hh
  | _ => exact hgo.set id

/-- A `WriteFrame` begins. -/
theorem beginWrite (h : s.Announced) (hv : s.Valid) {g : Gid} {j : Job} (hg : s.pc g = .locked j) :
    (s.beginWrite g j).Announced := by
  have hj : ∀ {r id data offset}, j = .data r id data offset → s.writeFailed = false → s.Known id :=
    fun hj => h.job (g := g) (by rw [hg, hj]; rfl)
  by_cases hw : s.writeFailed = true
  · have hgo : (s.goto g (.writing j)).Announced := h.goto (fun _ hf => absurd hw (by simp [hf])) (fun h => nomatch h)
      fun he hf => absurd hw (by simp [hf])
    rw [Session.beginWrite, if_pos hw]
    exact hgo
  · have hmono : ∀ {id}, id ∈ opensOf s.sent → id ∈ opensOf (s.sent ++ [j.frame]) :=
      fun hm => (opensOf_mono (List.prefix_append s.sent _)).subset hm
    rw [Session.beginWrite, if_neg hw]
    refine ⟨fun {g' j'} hg' hf => ?_, fun {g' r id} hg' => ?_, h.queued,
      fun hh hf => (h.handed hh hf).imp_left hmono, fun {g' r id data offset} hg' hf => ?_, fun {n f} hn ht => ?_,
      fun {f} hf ht => ?_⟩
    · by_cases hgg : g' = g
      · subst hgg
        rw [goto_self, Pc.writing.injEq] at hg'
        exact hg' ▸ List.mem_append_right _ (List.mem_singleton.mpr rfl)
      · rw [goto_of_ne _ hgg] at hg'
        exact List.mem_append_left _ (h.begun hg' hf)
    · by_cases hgg : g' = g
      · subst hgg
        rw [goto_self] at hg'
        exact nomatch hg'
      · rw [goto_of_ne _ hgg] at hg'
        exact h.accepting hg'
    · by_cases hgg : g' = g
      · subst hgg
        rw [goto_self] at hg'
        exact (hj (Option.some.inj hg') hf).imp_left hmono
      · rw [goto_of_ne _ hgg] at hg'
        exact (h.job hg' hf).imp_left hmono
    · rcases Nat.lt_or_ge n s.sent.length with hlt | hge
      · rw [List.getElem?_append_left hlt] at hn
        rw [List.take_append_of_le_length hlt.le]
        exact h.after hn ht
      · have hn0 : n - s.sent.length = 0 := by
          have := (List.getElem?_eq_some_iff.mp hn).1
          simp only [List.length_append, List.length_singleton] at this
          omega
        rw [List.getElem?_append_right hge, hn0, List.getElem?_cons_zero, Option.some.injEq] at hn
        subst hn
        rw [List.take_append, List.take_of_length_le hge]
        obtain ⟨r, id, data, offset, rfl⟩ := Job.exists_of_frame_data ht
        exact (hj rfl (Bool.eq_false_iff.mpr hw)).imp_left fun hm => by
          rw [opensOf_append]
          exact List.mem_append_left _ hm
    · rcases List.mem_append.mp hf with hf | hf
      · exact h.owner hf ht
      · rw [List.mem_singleton] at hf
        subst hf
        obtain ⟨r, id, data, offset, rfl⟩ := Job.exists_of_frame_data ht
        exact ⟨r, hv.works (g := g) (by rw [hg]; rfl)⟩

/-- A `WriteFrame` returns; when it wrote an open frame, the stream is announced. -/
theorem endWrite (h : s.Announced) (hv : s.Valid) {g : Gid} {j : Job} (hg : s.pc g = .writing j) (ok : Bool) :
    (s.endWrite g j ok).Announced := by
  have hf : (s.writeFailed || !ok) = false → s.writeFailed = false := fun h => (Bool.or_eq_false_iff.mp h).1
  have hw : { s with writeFailed := s.writeFailed || !ok }.Announced := h.set hf
  have hr : { s with writeFailed := s.writeFailed || !ok }.release.Announced := h.set hf
  cases j with
  | openFrame r id targetPort =>
    cases ok with
    | true =>
      have hk : (s.writeFailed || !true) = false → s.Known (s.heap r).id := fun hno => by
        have hmem := h.begun hg (hf hno)
        have hstream : (s.pc g).stream = some (r, id) := by rw [hg]; rfl
        rw [(hv.works hstream).2]
        exact .inl (mem_opensOf.mpr ⟨_, hmem, rfl, rfl⟩)
      exact (hr.modify (r := r) (f := ({ · with handed := true })) rfl fun _ => hk).answer g _
    | false => exact hr.goto_free trivial
  | closeFrame id why => exact hr.closeReturn g why
  | data r id data offset =>
    have hjob : (s.pc g).job = some (.data r id data offset) := by rw [hg]; rfl
    have hj : s.writeFailed = false → s.Known id := h.job hjob
    cases ok with
    | true =>
      refine hw.goto (fun h => nomatch h) (fun h => nomatch h) fun he hno => ?_
      simp only [Pc.job, Option.some.injEq, Job.data.injEq] at he
      exact he.2.1 ▸ hj (hf hno)
    | false => exact hr.answer g _
  | pong => exact hr.goto_free trivial
  | ping => exact hr.goto_free trivial

theorem giveUp (h : s.Announced) (g : Gid) (j : Job) : (s.giveUp g j).Announced := by
  have hr : s.release.Announced := h.set id
  cases j with
  | data r id data offset => exact hr.answer g _
  | _ => exact hr.goto_free trivial

theorem dispatch (h : s.Announced) (hv : s.Valid) (f : Frame) : (s.dispatch f).Announced := by
  have hv' : (s.heard f).Valid := ⟨hv.entry, hv.works, hv.queued, hv.handed, hv.queue⟩
  have hf := h.heard f
  rcases s.dispatch_cases f with ⟨ht, hd⟩ | ⟨r, -, hl, hd⟩ | ⟨r, -, hl, hd⟩ | ⟨-, hd⟩ | ⟨-, -, -, hd⟩
  all_goals rw [hd]
  · have hid : f.streamID ∈ opensOf (s.heard f).rcvd := by
      rw [Session.heard, opensOf_append, opensOf_open ht]
      exact List.mem_append_right _ (List.mem_singleton.mpr rfl)
    refine (hf.enter hv' f.streamID f.payload).goto (fun h => nomatch h) (fun he => ?_) fun h => nomatch h
    exact (Pc.accept.inj he).2 ▸ hid
  · exact hf.goto_free trivial
  · rw [hv'.drop_eq hl]
    exact (hf.modify (r := r) (f := (·.endedBy .peerClose)) rfl fun hh => hf.handed hh).set id
  · exact hf.goto_free rfl
  · exact hf

theorem quiet (h : s.Announced) (hq : s.Quiet s') : s'.Announced := by
  have hid : ∀ r, (s'.heap r).id = (s.heap r).id := fun r => congrArg Prod.fst (hq.outbox r)
  have hhanded : ∀ r, (s'.heap r).handed = (s.heap r).handed := fun r => congrArg (·.2.2) (hq.outbox r)
  have hknown : ∀ {id}, s.Known id → s'.Known id := fun hk => by rw [Known, hq.sent, hq.rcvd]; exact hk
  have hpc : ∀ {g p}, s'.pc g = p → ¬ p.Free → s.pc g = p := fun {g p} hg hp => by
    rcases hq.pc g with he | ⟨hfree, -⟩
    · exact he.symm.trans hg
    · exact absurd (hg ▸ hfree) hp
  refine ⟨fun hg hw => ?_, fun hg => ?_, fun hr => ?_, fun hh hw => ?_, fun {g r id data offset} hj hw => ?_,
    fun hn ht => ?_, fun hf ht => ?_⟩
  · rw [hq.sent]
    exact h.begun (hpc hg not_false) (hq.writeFailed ▸ hw)
  · rw [hq.rcvd]
    exact h.accepting (hpc hg not_false)
  · rw [hid, hq.rcvd]
    exact h.queued (hq.queued ▸ hr)
  · rw [hid]
    exact hknown (h.handed (hhanded _ ▸ hh) (hq.writeFailed ▸ hw))
  · rcases hq.pc g with he | ⟨hfree, -⟩
    · exact hknown (h.job (he ▸ hj) (hq.writeFailed ▸ hw))
    · exact nomatch hfree.stream_eq_none hj
  · rw [hq.sent] at hn ⊢
    rw [hq.rcvd]
    exact h.after hn ht
  · rw [hq.sent] at hf
    rw [hq.fresh]
    obtain ⟨r, hlt, hr⟩ := h.owner hf ht
    exact ⟨r, hlt, (hid r).trans hr⟩

theorem step {a : Act} (h : s.Announced) (hv : s.Valid) (hs : s.step a = some s') : s'.Announced := by
  cases (trans_of_step hs).2.sends hv with
  | quiet hq => exact h.quiet hq
  | @openStream g targetPort =>
    have he := (h.enter hv (s.nextStreamID + 2) targetPort).goto (g := g)
      (p := .waitMu (.openFrame s.fresh (s.nextStreamID + 2) targetPort))
      (fun h => nomatch h) (fun h => nomatch h) fun h => nomatch h
    exact he.set id
  | @acceptStream g r c hg hrecv =>
    obtain ⟨hbuf, -⟩ := Chan.recv_eq_value hrecv
    have hr : (s.heap r).id ∈ opensOf s.rcvd := h.queued (by simp [hbuf])
    have hm := h.modify (r := r) (f := ({ · with handed := true })) rfl fun _ _ => .inr hr
    refine (hm.queue (c := c) fun r' hr' => ?_).answer g _
    exact hm.queued (by rw [show (s.modify r _).acceptChan = s.acceptChan from rfl, hbuf]; exact List.mem_cons_of_mem _ hr')
  | @write g r data hg hh =>
    refine h.goto (fun h => nomatch h) (fun h => nomatch h) fun hj hw => ?_
    simp only [Pc.job, Option.some.injEq, Job.data.injEq] at hj
    exact hj.2.1 ▸ h.handed hh hw
  | lock hg => exact h.acquire hg
  | beginFrame hg => exact h.beginWrite hv hg
  | endFrame hg => exact h.endWrite hv hg _
  | unlock => exact h.giveUp _ _
  | recv => exact h.dispatch hv _
  | @enqueue r id c hg hsend =>
    obtain ⟨-, rfl⟩ := Chan.send_eq_sent hsend
    refine (h.goto_free (g := .readLoop) (p := .read) trivial).queue fun r' hr' => ?_
    rcases List.mem_append.mp hr' with hr' | hr'
    · exact h.queued hr'
    · have hstream : (s.pc .readLoop).stream = some (r, id) := by rw [hg]; rfl
      obtain ⟨-, hid⟩ := hv.works hstream
      rw [List.mem_singleton.mp hr']
      exact (show (s.heap r).id ∈ opensOf s.rcvd from hid ▸ h.accepting hg)
  | closeStreams =>
    rw [hv.closeStreams_eq]
    have hid : ∀ r, (if s.streams.lookup (s.heap r).id = some r then (s.heap r).endedBy .sessionClose
      else s.heap r).id = (s.heap r).id := fun r => by split <;> rfl
    have hhanded : ∀ r, (if s.streams.lookup (s.heap r).id = some r then (s.heap r).endedBy .sessionClose
      else s.heap r).handed = (s.heap r).handed := fun r => by split <;> rfl
    refine ⟨h.begun, h.accepting, fun {r} hr => hid r ▸ h.queued hr,
      fun {r} hh hw => hid r ▸ h.handed (hhanded r ▸ hh) hw, h.job, h.after, fun hf ht => ?_⟩
    obtain ⟨r, hlt, hr⟩ := h.owner hf ht
    exact ⟨r, hlt, (hid r).trans hr⟩

end Announced

/-! ### One open frame for each id -/

/-- No two streams of the session have the same id. -/
def Unique (s : Session) : Prop := ∀ {r r'}, r < s.fresh → r' < s.fresh → (s.heap r).id = (s.heap r').id → r = r'

/-- **No id is announced twice.** -/
structure Opening (s : Session) : Prop where
  nodup : (opensOf s.sent).Nodup
  unsaid : ∀ {g r id}, (s.pc g).unsaid = some (r, id) → id ∉ opensOf s.sent
  single : ∀ {g g' r id id'}, (s.pc g).unsaid = some (r, id) → (s.pc g').unsaid = some (r, id') → g = g'
  opener : ∀ {id}, id ∈ opensOf s.sent → ∃ r < s.fresh, (s.heap r).id = id

theorem newSession_opening (isServer : Bool) : (newSession isServer).Opening where
  nodup := List.nodup_nil
  unsaid {g r id} h := by cases g <;> simp [newSession, Gid.start, Pc.unsaid] at h
  single {g g' r id id'} h := by cases g <;> simp [newSession, Gid.start, Pc.unsaid] at h
  opener h := by simp [newSession] at h

namespace Opening

theorem goto (h : s.Opening) {g : Gid} {p : Pc} (hp : p.unsaid = none ∨ p.unsaid = (s.pc g).unsaid) :
    (s.goto g p).Opening := by
  have hold : ∀ {g' x}, ((s.goto g p).pc g').unsaid = some x → (s.pc g').unsaid = some x := fun {g' x} hx => by
    by_cases hg : g' = g
    · subst hg
      rw [goto_self] at hx
      rcases hp with hp | hp
      · exact nomatch hp.symm.trans hx
      · exact hp.symm.trans hx
    · rwa [goto_of_ne p hg] at hx
  exact ⟨h.nodup, fun hx => h.unsaid (hold hx), fun hx hx' => h.single (hold hx) (hold hx'), h.opener⟩

theorem set {next streams acc mu closed once conn ret panic rcvd opens failed} (h : s.Opening) :
    { s with
      nextStreamID := next, streams := streams, acceptChan := acc, writeMu := mu, closed := closed
      closeOnce := once, connClosed := conn, ret := ret, panic := panic, rcvd := rcvd, opens := opens
      writeFailed := failed : Session }.Opening :=
  ⟨h.nodup, h.unsaid, h.single, h.opener⟩

theorem answer (h : s.Opening) (g : Gid) (v : Ret) : (s.answer g v).Opening :=
  (h.goto (g := g) (p := .idle) (.inl rfl)).set

theorem modify (h : s.Opening) {r : Ref} {f : Stream → Stream} (hf : (f (s.heap r)).id = (s.heap r).id) :
    (s.modify r f).Opening := by
  refine ⟨h.nodup, h.unsaid, h.single, fun hid => ?_⟩
  obtain ⟨r', hlt, hr'⟩ := h.opener hid
  refine ⟨r', hlt, ?_⟩
  by_cases hr : r' = r
  · subst hr
    rw [modify_self, hf, hr']
  · rw [modify_of_ne f hr, hr']

theorem enter (h : s.Opening) (id : UInt32) (targetPort : List UInt8) : (s.enter id targetPort).Opening := by
  refine ⟨h.nodup, h.unsaid, h.single, fun hid => ?_⟩
  obtain ⟨r, hlt, hr⟩ := h.opener hid
  exact ⟨r, Nat.lt_succ_of_lt hlt, by rw [enter_of_ne id targetPort hlt.ne, hr]⟩

/-- The id of a new stream was not announced. -/
theorem register (h : s.Opening) (hv : s.Valid) {g : Gid} {targetPort : List UInt8}
    (hu : (s.register g targetPort).Unique) : (s.register g targetPort).Opening := by
  have he := h.enter (s.nextStreamID + 2) targetPort
  have hfresh : ∀ {g' r id}, (s.pc g').unsaid = some (r, id) → r ≠ s.fresh :=
    fun hx => (hv.works (Pc.stream_of_unsaid hx)).1.ne
  have hnew : ∀ {g' x}, ((s.register g targetPort).pc g').unsaid = some x →
      (g' = g ∧ x = (s.fresh, s.nextStreamID + 2)) ∨ (g' ≠ g ∧ (s.pc g').unsaid = some x) := fun {g' x} hx => by
    by_cases hg : g' = g
    · subst hg
      simp only [Session.register, goto_self, Pc.unsaid, Option.some.injEq] at hx
      exact .inl ⟨rfl, hx.symm⟩
    · simp only [Session.register, goto_of_ne _ hg] at hx
      exact .inr ⟨hg, hx⟩
  refine ⟨h.nodup, fun {g' r id} hx hid => ?_, fun {g' g'' r id id'} hx hx' => ?_, he.opener⟩
  · rcases hnew hx with ⟨-, he⟩ | ⟨-, ho⟩
    · obtain ⟨r', hlt, hr'⟩ := h.opener hid
      rw [Prod.mk.injEq] at he
      refine hlt.ne (hu (Nat.lt_succ_of_lt hlt) (Nat.lt_succ_self _) ?_)
      rw [show ((s.register g targetPort).heap r') = s.heap r' from enter_of_ne _ targetPort hlt.ne, hr', he.2]
      exact (congrArg Stream.id (enter_self (s := s) _ targetPort)).symm
    · exact h.unsaid ho hid
  · rcases hnew hx with ⟨hg, he⟩ | ⟨-, ho⟩ <;> rcases hnew hx' with ⟨hg', he'⟩ | ⟨-, ho'⟩
    · exact hg.trans hg'.symm
    · exact absurd (Prod.mk.inj he).1 (hfresh ho')
    · exact absurd (Prod.mk.inj he').1 (hfresh ho)
    · exact h.single ho ho'

theorem closeReturn (h : s.Opening) (g : Gid) (why : Closer) : (s.closeReturn g why).Opening := by
  cases why with
  | pushTimeout => exact h.goto (.inl rfl)
  | acceptOverflow => exact h.goto (.inl rfl)
  | openFailed => exact h.answer g _
  | streamClose r => exact (h.modify (r := r) (f := ({ · with closeOnce := .done })) rfl).answer g _

theorem acquire (h : s.Opening) {g : Gid} {j : Job} (hg : s.pc g = .waitMu j) : (s.acquire g j).Opening := by
  have hgo : (s.goto g (.locked j)).Opening := h.goto (.inr (by rw [hg]; cases j <;> rfl))
  cases j with
  | data r id data offset =>
    exact hgo.set.modify (r := r) (f := fun st => { st with put := st.put ++ data }) rfl
  | _ => exact hgo.set

/-- A `WriteFrame` begins: an open frame is the first for its id. -/
theorem beginWrite (h : s.Opening) (hv : s.Valid) (hu : s.Unique) {g : Gid} {j : Job} (hg : s.pc g = .locked j) :
    (s.beginWrite g j).Opening := by
  have hgo : (s.goto g (.writing j)).Opening := h.goto (.inl rfl)
  have hmem : opensOf (if s.writeFailed then s.sent else s.sent ++ [j.frame]) = opensOf s.sent ∨
      ∃ r id targetPort, j = .openFrame r id targetPort ∧
        opensOf (if s.writeFailed then s.sent else s.sent ++ [j.frame]) = opensOf s.sent ++ [id] := by
    by_cases hw : s.writeFailed = true
    · exact .inl (by rw [if_pos hw])
    · rw [if_neg hw, opensOf_append, Job.opensOf_frame]
      cases j with
      | openFrame r id targetPort => exact .inr ⟨r, id, targetPort, rfl, rfl⟩
      | _ => exact .inl (List.append_nil _)
  rcases hmem with he | ⟨r, id, targetPort, rfl, he⟩
  · refine ⟨?_, fun hx => ?_, hgo.single, fun hid => hgo.opener ?_⟩
    · exact he.symm ▸ h.nodup
    · exact he.symm ▸ hgo.unsaid hx
    · exact he ▸ hid
  · have hself : (s.pc g).unsaid = some (r, id) := by rw [hg]; rfl
    have hstream : (s.pc g).stream = some (r, id) := by rw [hg]; rfl
    have hr := hv.works hstream
    have hold : ∀ {g' x}, ((s.beginWrite g (.openFrame r id targetPort)).pc g').unsaid = some x →
        g' ≠ g ∧ (s.pc g').unsaid = some x := fun {g' x} hx => by
      by_cases hgg : g' = g
      · subst hgg
        simp only [Session.beginWrite, goto_self] at hx
        exact nomatch hx
      · simp only [Session.beginWrite, goto_of_ne _ hgg] at hx
        exact ⟨hgg, hx⟩
    refine ⟨?_, fun {g' r' id'} hx hid => ?_, fun hx hx' => h.single (hold hx).2 (hold hx').2, fun {id'} hid => ?_⟩
    · refine he.symm ▸ List.nodup_append.mpr ⟨h.nodup, List.nodup_singleton id, fun a ha b hb => ?_⟩
      rw [List.mem_singleton.mp hb]
      exact fun hab => h.unsaid hself (hab ▸ ha)
    · obtain ⟨hgg, ho⟩ := hold hx
      rcases List.mem_append.mp (he ▸ hid : id' ∈ opensOf s.sent ++ [id]) with hid | hid
      · exact h.unsaid ho hid
      · have hr' := hv.works (Pc.stream_of_unsaid ho)
        have hrr : r' = r := hu hr'.1 hr.1 (by rw [hr'.2, hr.2, List.mem_singleton.mp hid])
        exact hgg (h.single (hrr ▸ ho) hself)
    · rcases List.mem_append.mp (he ▸ hid : id' ∈ opensOf s.sent ++ [id]) with hid | hid
      · exact h.opener hid
      · exact ⟨r, hr.1, hr.2.trans (List.mem_singleton.mp hid).symm⟩

theorem endWrite (h : s.Opening) (g : Gid) (j : Job) (ok : Bool) : (s.endWrite g j ok).Opening := by
  have hw : { s with writeFailed := s.writeFailed || !ok }.Opening := h.set
  have hr : { s with writeFailed := s.writeFailed || !ok }.release.Opening := h.set
  cases j with
  | openFrame r id targetPort =>
    cases ok with
    | true => exact (hr.modify (r := r) (f := ({ · with handed := true })) rfl).answer g _
    | false => exact hr.goto (.inl rfl)
  | closeFrame id why => exact hr.closeReturn g why
  | data r id data offset =>
    cases ok with
    | true => exact hw.goto (.inl rfl)
    | false => exact hr.answer g _
  | pong => exact hr.goto (.inl rfl)
  | ping => exact hr.goto (.inl rfl)

theorem giveUp (h : s.Opening) (g : Gid) (j : Job) : (s.giveUp g j).Opening := by
  have hr : s.release.Opening := h.set
  cases j with
  | data r id data offset => exact hr.answer g _
  | _ => exact hr.goto (.inl rfl)

theorem dispatch (h : s.Opening) (hv : s.Valid) (f : Frame) : (s.dispatch f).Opening := by
  have hv' : (s.heard f).Valid := ⟨hv.entry, hv.works, hv.queued, hv.handed, hv.queue⟩
  have hf : (s.heard f).Opening := h.set
  rcases s.dispatch_cases f with ⟨-, hd⟩ | ⟨r, -, hl, hd⟩ | ⟨r, -, hl, hd⟩ | ⟨-, hd⟩ | ⟨-, -, -, hd⟩
  all_goals rw [hd]
  · exact (hf.enter f.streamID f.payload).goto (.inl rfl)
  · exact hf.goto (.inl rfl)
  · rw [hv'.drop_eq hl]
    exact (hf.modify (r := r) (f := (·.endedBy .peerClose)) rfl).set
  · exact hf.goto (.inl rfl)
  · exact hf

theorem quiet (h : s.Opening) (hq : s.Quiet s') : s'.Opening := by
  have hid : ∀ r, (s'.heap r).id = (s.heap r).id := fun r => congrArg Prod.fst (hq.outbox r)
  have hpc : ∀ {g x}, (s'.pc g).unsaid = some x → (s.pc g).unsaid = some x := fun {g x} hx => by
    rcases hq.pc g with he | ⟨hfree, -⟩
    · rwa [he] at hx
    · exact nomatch hfree.unsaid_eq_none.symm.trans hx
  refine ⟨hq.sent ▸ h.nodup, fun hx => hq.sent ▸ h.unsaid (hpc hx), fun hx hx' => h.single (hpc hx) (hpc hx'),
    fun hm => ?_⟩
  obtain ⟨r, hlt, hr⟩ := h.opener (hq.sent ▸ hm)
  exact ⟨r, hq.fresh ▸ hlt, (hid r).trans hr⟩

theorem step {a : Act} (h : s.Opening) (hv : s.Valid) (hu : s.Unique) (hu' : s'.Unique)
    (hs : s.step a = some s') : s'.Opening := by
  cases (trans_of_step hs).2.sends hv with
  | quiet hq => exact h.quiet hq
  | openStream => exact h.register hv hu'
  | @acceptStream g r =>
    exact (h.modify (r := r) (f := ({ · with handed := true })) rfl).set.answer g _
  | write => exact h.goto (.inl rfl)
  | lock hg => exact h.acquire hg
  | beginFrame hg => exact h.beginWrite hv hu hg
  | endFrame => exact h.endWrite _ _ _
  | unlock => exact h.giveUp _ _
  | recv => exact h.dispatch hv _
  | enqueue => exact (h.goto (g := .readLoop) (p := .read) (.inl rfl)).set
  | closeStreams =>
    rw [hv.closeStreams_eq]
    refine ⟨h.nodup, h.unsaid, h.single, fun hid => ?_⟩
    obtain ⟨r, hlt, hr⟩ := h.opener hid
    exact ⟨r, hlt, by dsimp only; split <;> exact hr⟩

end Opening

end Session

end Hawal.Mux
