import Hawal.Mux.Wire

/-!
# Delivery

Two sessions on a connection, with fewer than 2³¹ streams opened on each side. The
ids of the two sides have different parities and do not wrap around, so that no two
streams of a session have one id (`Session.Unique`), and nothing has arrived under an
id before its stream was registered. What `Read` has returned on a stream is then a
prefix of what was passed to `Write` on the stream of that id at the other end:
`received_prefix_written`.
-/

namespace Hawal.Mux

open Hawal.Lib Hawal.Transport

namespace Session

variable {s s' : Session} {a : Act}

/-- The new stream of a step, when there is one: it is registered with all that has
been handled behind it, and its id is the next of this side or was announced just now. -/
theorem Trans.entered (hv : s.Valid) (h : s.Trans a s') :
    (s'.fresh = s.fresh ∨ s'.fresh = s.fresh + 1 ∧ (s'.heap s.fresh).since = s'.rcvd.length ∧
      ((s'.heap s.fresh).id = s.nextStreamID + 2 ∧ s'.opens = s.opens + 1 ∧ s'.rcvd = s.rcvd ∨
        ∃ f, f.type = frameStreamOpen ∧ (s'.heap s.fresh).id = f.streamID ∧ s'.rcvd = s.rcvd ++ [f])) ∧
    ∀ r < s.fresh, (s'.heap r).id = (s.heap r).id ∧ (s'.heap r).since = (s.heap r).since := by
  have same : ∀ (r₀ : Ref) (f : Stream → Stream), (f (s.heap r₀)).id = (s.heap r₀).id →
      (f (s.heap r₀)).since = (s.heap r₀).since → ∀ r < s.fresh,
      ((s.modify r₀ f).heap r).id = (s.heap r).id ∧ ((s.modify r₀ f).heap r).since = (s.heap r).since :=
    fun r₀ f hid hsince r _ => by
      by_cases hr : r = r₀
      · subst hr
        rw [modify_self]
        exact ⟨hid, hsince⟩
      · rw [modify_of_ne f hr]
        exact ⟨rfl, rfl⟩
  have old : ∀ {t : Session} {id targetPort}, t.fresh = s.fresh → t.heap = s.heap → ∀ r < s.fresh,
      ((t.enter id targetPort).heap r).id = (s.heap r).id ∧
        ((t.enter id targetPort).heap r).since = (s.heap r).since := fun {t id targetPort} hf hh r hr => by
    rw [enter_of_ne id targetPort (hf ▸ hr.ne), hh]
    exact ⟨rfl, rfl⟩
  cases h.receives hv with
  | keeps hk => exact ⟨.inl hk.fresh, fun r _ => ⟨congrArg (·.id) (hk.inbox r), congrArg (·.since) (hk.inbox r)⟩⟩
  | @openStream g targetPort =>
    refine ⟨.inr ⟨rfl, ?_, .inl ⟨?_, rfl, rfl⟩⟩, old (t := s) rfl rfl⟩
    · exact congrArg Stream.since (enter_self (s := s) _ targetPort)
    · exact congrArg Stream.id (enter_self (s := s) _ targetPort)
  | @read g r n ret st _ _ hread =>
    obtain ⟨c, buf, got, hst, -⟩ := Stream.read_eq_some hread
    exact ⟨.inl rfl, same r (fun _ => st) (by rw [hst]) (by rw [hst])⟩
  | dropEntry _ hl =>
    rw [hv.drop_eq hl]
    exact ⟨.inl rfl, same _ (·.endedBy _) rfl rfl⟩
  | @recv f =>
    have hv' : (s.heard f).Valid := ⟨hv.entry, hv.works, hv.queued, hv.handed, hv.queue⟩
    rcases s.dispatch_cases f with ⟨ht, hd⟩ | ⟨r, -, hl, hd⟩ | ⟨r, -, hl, hd⟩ | ⟨-, hd⟩ | ⟨-, -, -, hd⟩
    all_goals rw [hd]
    · refine ⟨.inr ⟨rfl, ?_, .inr ⟨f, ht, ?_, rfl⟩⟩, old (t := s.heard f) rfl rfl⟩
      · exact congrArg Stream.since (enter_self (s := s.heard f) f.streamID f.payload)
      · exact congrArg Stream.id (enter_self (s := s.heard f) f.streamID f.payload)
    · exact ⟨.inl rfl, fun _ _ => ⟨rfl, rfl⟩⟩
    · rw [hv'.drop_eq hl]
      exact ⟨.inl rfl, same _ (·.endedBy _) rfl rfl⟩
    · exact ⟨.inl rfl, fun _ _ => ⟨rfl, rfl⟩⟩
    · exact ⟨.inl rfl, fun _ _ => ⟨rfl, rfl⟩⟩
  | enqueuePanics => exact ⟨.inl rfl, fun _ _ => ⟨rfl, rfl⟩⟩
  | pushPanics => exact ⟨.inl rfl, fun _ _ => ⟨rfl, rfl⟩⟩
  | @push r _ _ c => exact ⟨.inl rfl, same r ({ · with readChan := c }) rfl rfl⟩
  | timeout => exact ⟨.inl rfl, fun _ _ => ⟨rfl, rfl⟩⟩
  | closeStreams =>
    rw [hv.closeStreams_eq]
    exact ⟨.inl rfl, fun r _ => by dsimp only; split <;> exact ⟨rfl, rfl⟩⟩
  | closeAccept => exact ⟨.inl rfl, fun _ _ => ⟨rfl, rfl⟩⟩

/-- The side of a session does not change, and streams are only added. -/
theorem Trans.opens (hv : s.Valid) (h : s.Trans a s') : s'.isServer = s.isServer ∧ s.opens ≤ s'.opens := by
  cases h.receives hv with
  | keeps hk => exact ⟨hk.isServer, hk.opens.ge⟩
  | openStream => exact ⟨rfl, Nat.le_succ _⟩
  | dropEntry _ hl =>
    rw [hv.drop_eq hl]
    exact ⟨rfl, le_rfl⟩
  | @recv f =>
    obtain ⟨_, _, _, _, hd, -⟩ := dispatch_eq_of_valid hv f
    rw [hd]
    exact ⟨rfl, le_rfl⟩
  | closeStreams =>
    rw [hv.closeStreams_eq]
    exact ⟨rfl, le_rfl⟩
  | _ => exact ⟨rfl, le_rfl⟩

/-- Received frames are only added. -/
theorem Trans.rcvd_mono (hv : s.Valid) (h : s.Trans a s') : s.rcvd <+: s'.rcvd := by
  by_cases ha : ∃ f, a = .recv f
  · obtain ⟨f, rfl⟩ := ha
    cases h with
    | recv =>
      rw [dispatch_rcvd hv]
      exact List.prefix_append _ _
  · exact (h.rcvd hv fun f he => ha ⟨f, he⟩) ▸ List.prefix_rfl

/-- An id of this side's parity. -/
def Mine (s : Session) (id : UInt32) : Prop := id.toNat % 2 = s.base % 2

theorem Own.mine {id : UInt32} (h : s.Own id) : s.Mine id := by
  obtain ⟨k, -, -, rfl⟩ := h
  rw [Mine, own, UInt32.toNat_ofNat']
  omega

/-- The next id was not given before. -/
theorem Own.ne_next {id : UInt32} (h : s.Own id) (hn : s.Numbered) (hb : s.opens < 2 ^ 31) :
    id ≠ s.nextStreamID + 2 := by
  obtain ⟨k, hpos, hk, rfl⟩ := h
  rw [hn.next, own, own]
  intro he
  have := congrArg UInt32.toNat he
  rw [UInt32.toNat_add, UInt32.toNat_ofNat', UInt32.toNat_ofNat'] at this
  simp only [UInt32.reduceToNat] at this
  omega

theorem Numbered.next_mine (hn : s.Numbered) : s.Mine (s.nextStreamID + 2) := by
  rw [Mine, hn.next, own, UInt32.toNat_add, UInt32.toNat_ofNat']
  simp only [UInt32.reduceToNat]
  omega

/-- **Ids stay apart**, when those that the peer announces are of its own parity and
all different. -/
theorem Unique.step (hu : s.Unique) (hv : s.Valid) (hn : s.Numbered) (hs : s.step a = some s')
    (hb : s'.opens ≤ 2 ^ 31) (hpeer : ∀ id ∈ opensOf s'.rcvd, ¬ s.Mine id) (hnd : (opensOf s'.rcvd).Nodup) :
    s'.Unique := by
  obtain ⟨hfresh, hold⟩ := (trans_of_step hs).2.entered hv
  rcases hfresh with hf | ⟨hf, -, hnew⟩
  · intro r r' hr hr' hid
    rw [hf] at hr hr'
    rw [(hold r hr).1, (hold r' hr').1] at hid
    exact hu hr hr' hid
  · -- the new id is none of the old ones
    have hne : ∀ r < s.fresh, (s'.heap s.fresh).id ≠ (s.heap r).id := fun r hr => by
      rcases hnew with ⟨hid, hopens, hrcvd⟩ | ⟨f, ht, hid, hrcvd⟩
      · rw [hid]
        rcases hn.stream r hr with ho | hm
        · exact (ho.ne_next hn (by omega)).symm
        · exact fun he => hpeer _ (hrcvd.symm ▸ hm) (he ▸ hn.next_mine)
      · rw [hrcvd, opensOf_append, opensOf_open ht] at hpeer hnd
        rw [hid]
        rcases hn.stream r hr with ho | hm
        · exact fun he => hpeer f.streamID (List.mem_append_right _ (List.mem_singleton.mpr rfl)) (he ▸ ho.mine)
        · exact fun he => (List.nodup_append.mp hnd).2.2 _ hm f.streamID (List.mem_singleton.mpr rfl) he.symm
    intro r r' hr hr' hid
    rcases Nat.lt_succ_iff_lt_or_eq.mp (hf ▸ hr) with hr | hr <;>
      rcases Nat.lt_succ_iff_lt_or_eq.mp (hf ▸ hr') with hr' | hr'
    · rw [(hold r hr).1, (hold r' hr').1] at hid
      exact hu hr hr' hid
    · rw [hr', (hold r hr).1] at hid
      exact absurd hid.symm (hne r hr)
    · rw [hr, (hold r' hr').1] at hid
      exact absurd hid (hne r' hr')
    · rw [hr, hr']

/-- What a session keeps as long as its ids stay apart. -/
structure Sound (s : Session) : Prop where
  valid : s.Valid
  dispatched : s.Dispatched
  locked : s.Locked
  numbered : s.Numbered
  announced : s.Announced
  unique : s.Unique
  opening : s.Opening
  written : s.Written

theorem newSession_sound (isServer : Bool) : (newSession isServer).Sound where
  valid := newSession_valid isServer
  dispatched := newSession_dispatched isServer
  locked := newSession_locked isServer
  numbered := newSession_numbered isServer
  announced := newSession_announced isServer
  unique {r r'} h := by simp [newSession] at h
  opening := newSession_opening isServer
  written := newSession_written isServer

theorem Sound.step (h : s.Sound) (hu : s'.Unique) (hs : s.step a = some s') : s'.Sound where
  valid := h.valid.step hs
  dispatched := h.dispatched.step h.valid hs
  locked := h.locked.step h.valid hs
  numbered := h.numbered.step h.valid hs
  announced := h.announced.step h.valid hs
  unique := hu
  opening := h.opening.step h.valid h.unique hu hs
  written := h.written.step h.valid h.locked h.announced h.unique hu hs

end Session

namespace Pair

variable {cfg : Config} {p p' : Pair} {e : Event}

/-- A step is a step of at most one of the two sessions. -/
theorem Trans.sess (h : p.Trans cfg e p') : ∃ z, (p' z.other).sess = (p z.other).sess ∧
    ((p' z).sess = (p z).sess ∨ ∃ a, (p z).sess.step a = some (p' z).sess ∧ a.At z e ∧
      ∀ f, a = .recv f → ∃ rest, readFrame cfg.crypto (p z).held = .ok (f, rest)) := by
  cases h with
  | @act z a s hl hs =>
    refine ⟨z, by rw [run_other], .inr ⟨a, by rw [run_self]; exact hs, Act.at_act hl z, ?_⟩⟩
    rintro f rfl
    exact nomatch hl
  | @beginFrame z g draws j s hlt _ hs =>
    refine ⟨z, by rw [emit_other], .inr ⟨.beginFrame g, by rw [emit_self]; exact hs, ⟨draws, rfl⟩, ?_⟩⟩
    exact fun f h => nomatch h
  | @send z k => exact ⟨z, by rw [take_other], .inl (by rw [take_self])⟩
  | @endFrame z g s _ hs =>
    refine ⟨z, by rw [finish_other], .inr ⟨.endFrame g true, by rw [finish_self]; exact hs, rfl, ?_⟩⟩
    exact fun f h => nomatch h
  | @failFrame z g s _ _ hs =>
    refine ⟨z, by rw [finish_other], .inr ⟨.endFrame g false, by rw [finish_self]; exact hs, rfl, ?_⟩⟩
    exact fun f h => nomatch h
  | @pull z k => exact ⟨z, by rw [give_other], .inl (by rw [give_self])⟩
  | @recv z f rest s hr hs =>
    refine ⟨z, by rw [got_other], .inr ⟨.recv f, by rw [got_self]; exact hs, rfl, ?_⟩⟩
    intro f' he
    rw [Act.recv.injEq] at he
    exact ⟨rest, he ▸ hr⟩
  | @recvErr z s hs =>
    refine ⟨z, by rw [run_other], .inr ⟨.recvErr, by rw [run_self]; exact hs, rfl, ?_⟩⟩
    exact fun f h => nomatch h
  | @cut z => exact ⟨z, by rw [put_other], .inl (by rw [put_self])⟩

/-- Fewer than 2³¹ streams were opened on each side. -/
def Bounded (p : Pair) : Prop := ∀ x, (p x).sess.opens < 2 ^ 31

/-- No id was given twice: at most 2³¹ streams were opened on each side. -/
def Roomy (p : Pair) : Prop := ∀ x, (p x).sess.opens ≤ 2 ^ 31

/-- Side by side. -/
theorem bounded_of_sides (h : (p .server).sess.opens < 2 ^ 31 ∧ (p .client).sess.opens < 2 ^ 31) : Bounded p
  | .server => h.1
  | .client => h.2

theorem Bounded.roomy (h : Bounded p) : Roomy p := fun x => (h x).le

/-- **What holds of two sessions on a connection.** -/
structure Linked (cfg : Config) (p : Pair) : Prop where
  side : ∀ x, (p x).sess.isServer = decide (x = .server)
  sound : ∀ x, (p x).sess.Sound
  carried : ∀ x, Carried cfg p x
  untouched : ∀ {x r}, r < (p x).sess.fresh →
    dataOf ((p x).sess.heap r).id ((p x).sess.rcvd.take ((p x).sess.heap r).since) = []

theorem newPair_linked (cfg : Config) : Linked cfg newPair where
  side _ := rfl
  sound x := Session.newSession_sound _
  carried := newPair_carried cfg
  untouched h := by simp [newPair, newSession] at h

/-- The two sides have different parities. -/
theorem not_mine_of_other {x : Side} (hside : ∀ x, (p x).sess.isServer = decide (x = .server)) {id : UInt32}
    (h : (p x.other).sess.Mine id) : ¬ (p x).sess.Mine id := by
  rw [Session.Mine, Session.base, hside] at h ⊢
  cases x <;> simp [Side.other] at h ⊢ <;> omega

namespace Linked

/-- What one side has received was announced by the other. -/
theorem peer (h : Linked cfg p) (x : Side) {rcvd : List Frame} (hr : rcvd <+: (p x.other).sess.sent) :
    (∀ id ∈ opensOf rcvd, ¬ (p x).sess.Mine id) ∧ (opensOf rcvd).Nodup := by
  have hpre := opensOf_mono hr
  refine ⟨fun id hid => not_mine_of_other h.side ?_, (h.sound x.other).opening.nodup.sublist hpre.sublist⟩
  exact ((h.sound x.other).numbered.sent id (hpre.subset hid)).mine

/-- Nothing has arrived under an id that is new to a session. -/
theorem nothing_before (h : Linked cfg p) (x : Side) {id : UInt32} {rcvd : List Frame}
    (hr : rcvd <+: (p x.other).sess.sent) (hown : (p x).sess.Mine id → ¬ (p x).sess.Own id)
    (hpeer : id ∉ opensOf rcvd) : dataOf id rcvd = [] := by
  by_contra hne
  obtain ⟨f, hf, ht, rfl⟩ := exists_of_dataOf_ne_nil hne
  obtain ⟨n, hn⟩ := List.getElem?_of_mem hf
  have hlt : n < rcvd.length := (List.getElem?_eq_some_iff.mp hn).1
  obtain ⟨more, hmore⟩ := hr
  have hn' : (p x.other).sess.sent[n]? = some f := by
    rw [← hmore, List.getElem?_append_left hlt, hn]
  rcases (h.sound x.other).announced.after hn' ht with hm | hm
  · -- announced by the other side, before the data
    rw [← hmore, List.take_append_of_le_length hlt.le] at hm
    have hpre : rcvd.take n <+: rcvd := List.take_prefix n rcvd
    exact hpeer ((opensOf_mono hpre).subset hm)
  · -- announced by this side
    have hmem : f.streamID ∈ opensOf (p x).sess.sent := by
      have := (h.carried x).rcvd_le_sent
      exact (opensOf_mono this).subset hm
    have ho : (p x).sess.Own f.streamID := (h.sound x).numbered.sent _ hmem
    exact hown ho.mine ho

/-- One session makes a step, and the other side had sent what it has received. -/
theorem sess_step (h : Linked cfg p) (x : Side) {s : Session} {a : Act} (hs : (p x).sess.step a = some s)
    (hb : s.opens ≤ 2 ^ 31) (hr : s.rcvd <+: (p x.other).sess.sent) :
    s.Sound ∧ ∀ r < s.fresh, dataOf (s.heap r).id (s.rcvd.take (s.heap r).since) = [] := by
  have ht := (Session.trans_of_step hs).2
  have hsound := h.sound x
  obtain ⟨hmine, hnd⟩ := h.peer x hr
  have hu : s.Unique := Session.Unique.step hsound.unique hsound.valid hsound.numbered hs hb hmine hnd
  refine ⟨hsound.step hu hs, fun r hlt => ?_⟩
  obtain ⟨hfresh, hold⟩ := ht.entered hsound.valid
  by_cases hr' : r < (p x).sess.fresh
  · -- an older stream: what came before it is settled
    have hsince := (hsound.dispatched.fed r hr').since
    obtain ⟨more, hmore⟩ := ht.rcvd_mono hsound.valid
    rw [(hold r hr').1, (hold r hr').2, ← hmore, List.take_append_of_le_length hsince]
    exact h.untouched hr'
  · rcases hfresh with hf | ⟨hf, hsince, hnew⟩
    · exact absurd (hf ▸ hlt) hr'
    rw [hf] at hlt
    obtain rfl : r = (p x).sess.fresh := Nat.le_antisymm (Nat.le_of_lt_succ hlt) (Nat.not_lt.mp hr')
    rw [hsince, List.take_length]
    rcases hnew with ⟨hid, hopens, hrcvd⟩ | ⟨f, hft, hid, hrcvd⟩
    · rw [hid]
      have hown : ¬ (p x).sess.Own ((p x).sess.nextStreamID + 2) := fun ho =>
        ho.ne_next hsound.numbered (by omega) rfl
      exact h.nothing_before x hr (fun _ => hown) fun hm => hmine _ hm hsound.numbered.next_mine
    · rw [hid]
      rw [hrcvd, opensOf_append, opensOf_open hft] at hnd hmine
      have hpre : (p x).sess.rcvd <+: (p x.other).sess.sent :=
        (hrcvd ▸ List.prefix_append _ _ : (p x).sess.rcvd <+: s.rcvd).trans hr
      have hnot : ¬ (p x).sess.Mine f.streamID :=
        hmine _ (List.mem_append_right _ (List.mem_singleton.mpr rfl))
      have hnew : f.streamID ∉ opensOf (p x).sess.rcvd := fun hm =>
        (List.nodup_append.mp hnd).2.2 _ hm f.streamID (List.mem_singleton.mpr rfl) rfl
      rw [hrcvd, dataOf_append, h.nothing_before x hpre (fun hm => absurd hm hnot) hnew,
        dataOf_of_type_ne _ (by rw [hft]; decide), List.append_nil]

/-- **Every step keeps it.** -/
theorem step (h : Linked cfg p) (hb : Roomy p') (hstep : p.step cfg e = some p') : Linked cfg p' := by
  have hv : ∀ x, (p x).sess.Valid := fun x => (h.sound x).valid
  have hcarried : ∀ x, Carried cfg p' x := fun x =>
    (h.carried x).step hv (fun z => (h.sound z).locked) hstep
  obtain ⟨z, hother, hz⟩ := (trans_of_step hstep).sess
  have hstepped : (p' z).sess.isServer = (p z).sess.isServer ∧ (p' z).sess.Sound ∧
      ∀ r < (p' z).sess.fresh, dataOf ((p' z).sess.heap r).id
        ((p' z).sess.rcvd.take ((p' z).sess.heap r).since) = [] := by
    rcases hz with hz | ⟨a, hs, -⟩
    · rw [hz]
      exact ⟨rfl, h.sound z, fun r hr => h.untouched hr⟩
    · have hr : (p' z).sess.rcvd <+: (p z.other).sess.sent := by
        have := (hcarried z.other).rcvd_le_sent
        rwa [Side.other_other, hother] at this
      exact ⟨((Session.trans_of_step hs).2.opens (hv z)).1, h.sess_step z hs (hb z) hr⟩
  refine ⟨fun x => ?_, fun x => ?_, hcarried, fun {x r} hr => ?_⟩
  all_goals rcases Side.eq_or_eq_other z x with rfl | rfl
  · exact hstepped.1.trans (h.side x)
  · rw [hother]
    exact h.side z.other
  · exact hstepped.2.1
  · rw [hother]
    exact h.sound z.other
  · exact hstepped.2.2 r hr
  · rw [hother] at hr ⊢
    exact h.untouched hr

end Linked

/-- Streams are only added. -/
theorem opens_le_of_step (hv : ∀ x, (p x).sess.Valid) (hstep : p.step cfg e = some p') (x : Side) :
    (p x).sess.opens ≤ (p' x).sess.opens := by
  obtain ⟨z, hother, hz⟩ := (trans_of_step hstep).sess
  rcases Side.eq_or_eq_other z x with rfl | rfl
  · rcases hz with hz | ⟨a, hs, -⟩
    · exact (congrArg Session.opens hz).ge
    · exact ((Session.trans_of_step hs).2.opens (hv x)).2
  · exact (congrArg Session.opens hother).ge

theorem Bounded.of_step (hv : ∀ x, (p x).sess.Valid) (hstep : p.step cfg e = some p') (hb : Bounded p') :
    Bounded p := fun x => (opens_le_of_step hv hstep x).trans_lt (hb x)

theorem Roomy.of_step (hv : ∀ x, (p x).sess.Valid) (hstep : p.step cfg e = some p') (hb : Roomy p') :
    Roomy p := fun x => (opens_le_of_step hv hstep x).trans (hb x)

/-- What a session keeps, both sessions keep. -/
theorem sess_of_step {I : Session → Prop} (hI : ∀ {s s' a}, I s → Session.step s a = some s' → I s')
    (hp : ∀ x, I (p x).sess) (hstep : p.step cfg e = some p') : ∀ x, I (p' x).sess := by
  intro x
  obtain ⟨z, hother, hz⟩ := (trans_of_step hstep).sess
  rcases Side.eq_or_eq_other z x with rfl | rfl
  · rcases hz with hz | ⟨a, hs, -⟩
    · exact hz ▸ hp x
    · exact hI (hp x) hs
  · exact hother ▸ hp z.other

theorem exec_newPair_sess {I : Session → Prop} (h0 : ∀ isServer, I (newSession isServer))
    (hI : ∀ {s s' a}, I s → Session.step s a = some s' → I s') {es : List Event}
    (h : exec (step cfg) newPair es = some p) : ∀ x, I (p x).sess :=
  exec_inv (I := fun p : Pair => ∀ x, I (p x).sess) (fun _ _ _ hp hstep => sess_of_step hI hp hstep)
    (fun _ => h0 _) h

/-- The state of a run before an id is given twice is linked. -/
theorem linked_of_step (hp : (∀ x, (p x).sess.Valid) ∧ (Roomy p → Linked cfg p)) (hstep : p.step cfg e = some p') :
    (∀ x, (p' x).sess.Valid) ∧ (Roomy p' → Linked cfg p') := by
  refine ⟨sess_of_step Session.Valid.step hp.1 hstep, fun hb => ?_⟩
  exact (hp.2 (hb.of_step hp.1 hstep)).step hb hstep

/-- **It holds in every state before an id is given twice.** -/
theorem exec_newPair_linked {es : List Event} (h : exec (step cfg) newPair es = some p) (hb : Roomy p) :
    Linked cfg p :=
  (exec_inv (I := fun p => (∀ x, (p x).sess.Valid) ∧ (Roomy p → Linked cfg p))
    (fun _ _ _ hp hstep => linked_of_step hp hstep)
    ⟨fun _ => Session.newSession_valid _, fun _ => newPair_linked cfg⟩ h).2 hb

namespace Linked

/-- What has arrived was sent. -/
theorem rcvd_le (h : Linked cfg p) (x : Side) : (p x).sess.rcvd <+: (p x.other).sess.sent := by
  have hsent := (h.carried x.other).rcvd_le_sent
  rwa [Side.other_other] at hsent

/-- What `Read` has returned is a prefix of the data that has arrived for the stream. -/
theorem got_le (h : Linked cfg p) (x : Side) {r : Ref} (hr : r < (p x).sess.fresh) :
    ((p x).sess.heap r).got <+: dataOf ((p x).sess.heap r).id (p x).sess.rcvd := by
  set s := (p x).sess
  have hrec : (s.heap r).got <+: (s.heap r).received ++ s.inHandOf r := by
    rw [Stream.received, List.append_assoc, List.append_assoc]
    exact List.prefix_append _ _
  -- what has arrived under the id since the stream was registered is all that has
  have hall : dataOf (s.heap r).id (s.rcvd.drop (s.heap r).since) = dataOf (s.heap r).id s.rcvd := by
    have hsplit := congrArg (dataOf (s.heap r).id) (List.take_append_drop (s.heap r).since s.rcvd)
    rwa [dataOf_append, h.untouched hr, List.nil_append] at hsplit
  exact hall ▸ hrec.trans ((h.sound x).dispatched.fed r hr).data

end Linked

/-- `r` at the end `x` and `r'` at the other end are the same stream. -/
def Same (p : Pair) (x : Side) (r r' : Ref) : Prop :=
  r < (p x).sess.fresh ∧ r' < (p x.other).sess.fresh ∧ ((p x).sess.heap r).id = ((p x.other).sess.heap r').id

/-- **Delivery.** What `Read` has returned on a stream is a prefix of what was passed
to `Write`, in the order of `writeMu`, on the same stream at the other end. A stream
on which anything was read is at the other end, and it is one stream there. -/
theorem received_prefix_written {es : List Event} (h : exec (step cfg) newPair es = some p) (hb : Bounded p)
    (x : Side) {r : Ref} (hr : r < (p x).sess.fresh) :
    (∀ r', p.Same x r r' → ((p x).sess.heap r).got <+: ((p x.other).sess.heap r').put) ∧
    (∀ r' r'', p.Same x r r' → p.Same x r r'' → r' = r'') ∧
    (((p x).sess.heap r).got ≠ [] → ∃ r', p.Same x r r') := by
  have hl := exec_newPair_linked h hb.roomy
  set s := (p x).sess
  have hgot : (s.heap r).got <+: dataOf (s.heap r).id s.rcvd := hl.got_le x hr
  have hsent : s.rcvd <+: (p x.other).sess.sent := hl.rcvd_le x
  refine ⟨fun r' hs => ?_, fun r' r'' hs hs' => ?_, fun hne => ?_⟩
  · have hw := (hl.sound x.other).written.sent r' hs.2.1
    rw [← hs.2.2] at hw
    exact (hgot.trans (dataOf_mono _ hsent)).trans hw
  · exact (hl.sound x.other).unique hs.2.1 hs'.2.1 (hs.2.2.symm.trans hs'.2.2)
  · have hdata : dataOf (s.heap r).id s.rcvd ≠ [] := fun hnil => hne (List.prefix_nil.mp (hnil ▸ hgot))
    obtain ⟨f, hf, ht, hid⟩ := exists_of_dataOf_ne_nil hdata
    obtain ⟨r', hlt, hr'⟩ := (hl.sound x.other).announced.owner (hsent.subset hf) ht
    exact ⟨r', hr, hlt, hid.symm.trans hr'.symm⟩

/-- The server writes two bytes to a stream, and the client reads the first. -/
def deliveredRun : List Event :=
  opensStream ++ .act .server (.write (.app 0) 0 [7, 8]) :: writesFrame .server (.app 0) 46 ++
    readsFrame .client 30 ++ [.act .client .push, .act .client (.read (.app 0) 0 1)]

/-- Delivery on `deliveredRun`. -/
theorem deliveredRun_received : ∃ p, exec (step (sampleConfig 100)) newPair deliveredRun = some p ∧
    ((p .client).sess.heap 0).got = [7] ∧
    ((p .client).sess.heap 0).got <+: ((p .server).sess.heap 0).put := by
  obtain ⟨p, hp, hgot, hb, hsame⟩ := exists_of_any (P := fun p : Pair =>
      ((p .client).sess.heap 0).got = [7] ∧
        ((p .server).sess.opens < 2 ^ 31 ∧ (p .client).sess.opens < 2 ^ 31) ∧
        (0 < (p .client).sess.fresh ∧ 0 < (p .server).sess.fresh ∧
          ((p .client).sess.heap 0).id = ((p .server).sess.heap 0).id))
    (show (exec (step (sampleConfig 100)) newPair deliveredRun).any _ = true by decide +kernel)
  exact ⟨p, hp, hgot, (received_prefix_written hp (bounded_of_sides hb) .client hsame.1).1 0 hsame⟩

end Pair

end Hawal.Mux
