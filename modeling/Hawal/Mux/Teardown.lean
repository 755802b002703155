import Hawal.Mux.Moves

/-!
# Teardown

`Session.Close` closes the streams it finds in the table. So its work is complete if every
stream that was made has ended or is in the table, and no stream is made once the table was
emptied (`Kept`). `OpenStream` asks for `closed` before it registers a stream; `readLoop`
does not, and neither looks whether the id is in use.

* `tidy_iff_never_lost` — the runs that lose no stream, and what `Session.Close` has then done.
* `lostRun_blocks` — a repeated id leaves a stream open for good.
-/

namespace Hawal.Mux.Session

open Hawal.Lib Hawal.Transport

variable {s s' : Session} {a : Act}

/-- No stream is lost: one that has not ended is in the table, and none is left there after
`Session.Close` has emptied it. -/
def Kept (s : Session) : Prop :=
  ∀ r < s.fresh, (s.heap r).readChan.closed = true ∨ s.closed = false ∧ s.streams.lookup (s.heap r).id = some r

/-- A stream is registered while the session is open and under an id that is not in the table. -/
def Tidy (s : Session) : Act → Prop
  | .openStream _ _ => s.closed = false → s.streams.lookup (s.nextStreamID + 2) = none
  | .recv f => f.type = frameStreamOpen → s.closed = false ∧ s.streams.lookup f.streamID = none
  | _ => True

instance (a : Act) : Decidable (s.Tidy a) := by cases a <;> unfold Tidy <;> infer_instance

theorem newSession_kept (isServer : Bool) : (newSession isServer).Kept := by
  intro r hr
  simp [newSession] at hr

theorem Kept.congr (h : s.Kept) (hfresh : s'.fresh = s.fresh) (hclosed : s'.closed = s.closed)
    (hstreams : s'.streams = s.streams) (hid : ∀ r, (s'.heap r).id = (s.heap r).id)
    (hchan : ∀ r, (s'.heap r).readChan.closed = (s.heap r).readChan.closed) : s'.Kept := by
  intro r hr
  rw [hchan, hclosed, hstreams, hid]
  exact h r (hfresh ▸ hr)

/-- Registering a stream loses one unless the session is open and the id is free. -/
theorem Kept.enter_iff (h : s.Kept) (hv : s.Valid) (id : UInt32) (targetPort : List UInt8) :
    (s.enter id targetPort).Kept ↔ s.closed = false ∧ s.streams.lookup id = none := by
  constructor
  · intro hk
    have hnew := hk s.fresh (Nat.lt_succ_self _)
    rw [enter_self] at hnew
    rcases hnew with hc | ⟨hopen, -⟩
    · cases hc
    refine ⟨hopen, ?_⟩
    cases hl : s.streams.lookup id with
    | none => rfl
    | some r =>
      -- the stream that had the entry is open and has lost it
      obtain ⟨hlt, hid, hchan⟩ := hv.entry hl
      have hold := hk r (Nat.lt_succ_of_lt hlt)
      rw [enter_of_ne id targetPort hlt.ne, hid, hchan] at hold
      rcases hold with hc | ⟨-, hl'⟩
      · cases hc
      · rw [Session.enter, AList.lookup_insert, Option.some.injEq] at hl'
        exact absurd hl' hlt.ne'
  · rintro ⟨hopen, hfree⟩ r hr
    by_cases hnew : r = s.fresh
    · subst hnew
      rw [enter_self]
      exact .inr ⟨hopen, AList.lookup_insert _⟩
    · have hlt : r < s.fresh := lt_of_le_of_ne (Nat.le_of_lt_succ hr) hnew
      rw [enter_of_ne id targetPort hnew]
      refine (h r hlt).imp_right ?_
      rintro ⟨-, hl⟩
      refine ⟨hopen, ?_⟩
      have hid : (s.heap r).id ≠ id := by
        intro he
        rw [he, hfree] at hl
        cases hl
      exact (AList.lookup_insert_ne hid).trans hl

/-- A stream that leaves the table has ended. -/
theorem Kept.drop (h : s.Kept) (hv : s.Valid) {id : UInt32} {r : Ref} (hl : s.streams.lookup id = some r)
    (cause : EndCause) : (s.drop id r cause).Kept := by
  rw [hv.drop_eq hl]
  intro r' hr'
  by_cases hr : r' = r
  · subst hr
    exact .inl (by simp [Session.modify, Stream.endedBy, Chan.close])
  · dsimp only
    rw [modify_of_ne _ hr]
    refine (h r' hr').imp_right ?_
    rintro ⟨hopen, hl'⟩
    refine ⟨hopen, ?_⟩
    have hid : (s.heap r').id ≠ id := by
      intro he
      rw [he, hl, Option.some.injEq] at hl'
      exact hr hl'.symm
    exact (AList.lookup_erase_ne hid).trans hl'

theorem Kept.closeStreams (h : s.Kept) (hv : s.Valid) : s.closeStreams.Kept := by
  rw [hv.closeStreams_eq]
  intro r hr
  dsimp only
  split
  · exact .inl rfl
  · rename_i hl
    exact .inl ((h r hr).resolve_right fun ⟨_, hl'⟩ => hl hl')

/-- No stream is lost by a step that registers none. -/
theorem Kept.step (h : s.Kept) (hv : s.Valid) (ht : s.Trans a s') (ho : ∀ g targetPort, a ≠ .openStream g targetPort)
    (hr : ∀ f, a ≠ .recv f) : s'.Kept := by
  have closed : (∀ g, a ≠ .closeStreams g) → s'.closed = s.closed := fun ha => by
    rcases ht.shutdown hv with ⟨-, hc⟩ | ⟨-, -, -, hc⟩ | ⟨⟨g, hg⟩, -⟩ | ⟨-, -, -, hc⟩ | ⟨-, -, -, hc⟩
    · exact hc
    · exact hc
    · exact absurd hg (ha g)
    · exact hc
    · exact hc
  cases ht.receives hv with
  | keeps hk =>
    by_cases ha : ∃ g, a = .closeStreams g
    · obtain ⟨g, rfl⟩ := ha
      cases ht with
      | closeStreams => exact (h.closeStreams hv).congr rfl rfl rfl (fun _ => rfl) fun _ => rfl
    · refine h.congr hk.fresh (closed fun g he => ha ⟨g, he⟩) hk.streams (fun r => ?_) fun r => by rw [hk.readChan]
      exact congrArg (·.id) (hk.inbox r)
  | openStream => exact absurd rfl (ho _ _)
  | @read g r n ret st _ _ hread =>
    obtain ⟨c, buf, got, rfl, hc, -⟩ := Stream.read_eq_some hread
    refine h.congr rfl rfl rfl (fun r' => ?_) fun r' => ?_
    all_goals
      by_cases hr' : r' = r
      · subst hr'
        simp [Session.modify, hc]
      · simp [Session.modify, hr']
  | dropEntry _ hl => exact (h.drop hv hl _).congr rfl rfl rfl (fun _ => rfl) fun _ => rfl
  | recv => exact absurd rfl (hr _)
  | enqueuePanics => exact h.congr rfl rfl rfl (fun _ => rfl) fun _ => rfl
  | pushPanics => exact h.congr rfl rfl rfl (fun _ => rfl) fun _ => rfl
  | @push r id payload c _ hsend =>
    obtain ⟨-, rfl⟩ := Chan.send_eq_sent hsend
    refine h.congr rfl rfl rfl (fun r' => ?_) fun r' => ?_
    all_goals
      by_cases hr' : r' = r
      · subst hr'
        simp [Session.modify]
      · simp [Session.modify, hr']
  | timeout => exact h.congr rfl rfl rfl (fun _ => rfl) fun _ => rfl
  | closeStreams => exact (h.closeStreams hv).congr rfl rfl rfl (fun _ => rfl) fun _ => rfl
  | closeAccept => exact h.congr rfl rfl rfl (fun _ => rfl) fun _ => rfl

/-- **What loses a stream.** -/
theorem Kept.tidy_iff (h : s.Kept) (hv : s.Valid) (hs : s.step a = some s') : s.Tidy a ↔ s'.Kept := by
  have ht := (trans_of_step hs).2
  cases a with
  | openStream g targetPort =>
    cases ht with
    | openRefused _ hc =>
      exact iff_of_true (fun ho => absurd (ho.symm.trans hc) Bool.false_ne_true)
        (h.congr rfl rfl rfl (fun _ => rfl) fun _ => rfl)
    | openStream _ hc =>
      have hiff := h.enter_iff hv (s.nextStreamID + 2) targetPort
      rw [and_iff_right hc] at hiff
      constructor
      · intro hl
        exact (hiff.mpr (hl hc)).congr rfl rfl rfl (fun _ => rfl) fun _ => rfl
      · intro hk _
        exact hiff.mp (hk.congr rfl rfl rfl (fun _ => rfl) fun _ => rfl)
  | recv f =>
    cases ht with
    | recv =>
      have hv' : (s.heard f).Valid := ⟨hv.entry, hv.works, hv.queued, hv.handed, hv.queue⟩
      have h' : (s.heard f).Kept := h.congr rfl rfl rfl (fun _ => rfl) fun _ => rfl
      rcases s.dispatch_cases f with ⟨ho, hd⟩ | ⟨r, ho, hl, hd⟩ | ⟨r, ho, hl, hd⟩ | ⟨ho, hd⟩ | ⟨ho, -, -, hd⟩
      all_goals rw [hd]
      · have hiff := h'.enter_iff hv' f.streamID f.payload
        constructor
        · intro htidy
          exact (hiff.mpr (htidy ho)).congr rfl rfl rfl (fun _ => rfl) fun _ => rfl
        · intro hk _
          exact hiff.mp (hk.congr rfl rfl rfl (fun _ => rfl) fun _ => rfl)
      · refine iff_of_true (fun ho' => absurd (ho.symm.trans ho') (by decide)) ?_
        exact h'.congr rfl rfl rfl (fun _ => rfl) fun _ => rfl
      · refine iff_of_true (fun ho' => absurd (ho.symm.trans ho') (by decide)) ?_
        exact h'.drop hv' hl _
      · refine iff_of_true (fun ho' => absurd (ho.symm.trans ho') (by decide)) ?_
        exact h'.congr rfl rfl rfl (fun _ => rfl) fun _ => rfl
      · exact iff_of_true (fun ho' => absurd ho' ho) h'
  | _ => exact iff_of_true trivial (h.step hv ht (fun _ _ he => Act.noConfusion he) fun _ he => Act.noConfusion he)

/-- `closed` is set before the function that `Session.Close` runs once goes past the table. -/
theorem closed_of_done {isServer : Bool} {as : List Act} (h : exec step (newSession isServer) as = some s)
    (ho : s.closeOnce = .done) : s.closed = true := by
  have hrun : s.Valid ∧ (s.closed = true ∨ s.closeOnce = .ready ∨ s.closeOnce = .table) := by
    refine exec_inv (I := fun s => s.Valid ∧ (s.closed = true ∨ s.closeOnce = .ready ∨ s.closeOnce = .table))
      ?_ ⟨newSession_valid isServer, .inr (.inl rfl)⟩ h
    rintro s a s' ⟨hv, hc⟩ hs
    refine ⟨hv.step hs, ?_⟩
    rcases (trans_of_step hs).2.shutdown hv with ⟨h₁, h₂⟩ | ⟨-, -, h₁, -⟩ | ⟨-, -, -, h₂⟩ | ⟨-, h₀, -, h₂⟩
      | ⟨-, h₀, -, h₂⟩
    · rwa [h₁, h₂]
    · exact .inr (.inr h₁)
    · exact .inl h₂
    · exact .inl (h₂.trans (hc.resolve_right (by simp [h₀])))
    · exact .inl (h₂.trans (hc.resolve_right (by simp [h₀])))
  exact hrun.2.resolve_right (by simp [ho])

/-- In a session that has emptied its table without losing a stream, every stream has ended. -/
theorem Kept.ended (h : s.Kept) (hv : s.Valid) (hc : s.closed = true) :
    s.streams = ∅ ∧ ∀ r < s.fresh, (s.heap r).readChan.closed = true := by
  have hall : ∀ r < s.fresh, (s.heap r).readChan.closed = true := fun r hr =>
    (h r hr).resolve_right fun ⟨hopen, _⟩ => Bool.false_ne_true (hopen.symm.trans hc)
  refine ⟨?_, hall⟩
  refine AList.ext (List.eq_nil_iff_forall_not_mem.mpr ?_)
  rintro ⟨id, r⟩ hmem
  obtain ⟨hlt, -, hchan⟩ := hv.entry (AList.mem_lookup_iff.mpr hmem)
  exact Bool.false_ne_true (hchan.symm.trans (hall r hlt))

/-- `Read` does not wait on a stream that has ended. -/
theorem read_isSome {st : Stream} (h : st.readChan.closed = true) (n : ℕ) : (st.read n).isSome = true := by
  unfold Stream.read
  split_ifs
  · rfl
  · split
    · rfl
    · rfl
    · rename_i hrecv
      exact absurd hrecv (Chan.recv_ne_blocks h)

/-- **Teardown.** The runs whose steps are all tidy are exactly those that never lose a stream.
In such a run, once `Session.Close` has returned, the table is empty, the `readChan` of
every stream that was ever made is closed, and no `Read` waits. -/
theorem tidy_iff_never_lost {isServer : Bool} {as : List Act} (h : exec step (newSession isServer) as = some s) :
    (Along step Tidy (newSession isServer) as ↔
      ∀ pre t, pre <+: as → exec step (newSession isServer) pre = some t → t.Kept) ∧
    (Along step Tidy (newSession isServer) as → s.closeOnce = .done →
      s.streams = ∅ ∧ ∀ r < s.fresh, (s.heap r).readChan.closed = true ∧ ∀ n, ((s.heap r).read n).isSome = true) := by
  have hiff : Along step Tidy (newSession isServer) as ↔
      ∀ pre t, pre <+: as → exec step (newSession isServer) pre = some t → ¬ ¬ t.Kept :=
    along_iff_never (I := Valid) (fun _ _ _ hv hs => hv.step hs)
      (fun _ _ _ hv hk hs => ((not_not.mp hk).tidy_iff hv hs).trans not_not.symm) (newSession_valid isServer)
      (not_not.mpr (newSession_kept isServer)) h
  simp only [not_not] at hiff
  refine ⟨hiff, fun ha ho => ?_⟩
  have hk : s.Kept := hiff.mp ha as s List.prefix_rfl h
  obtain ⟨hempty, hall⟩ := hk.ended (exec_newSession_valid h).1 (closed_of_done h ho)
  exact ⟨hempty, fun r hr => ⟨hall r hr, read_isSome (hall r hr)⟩⟩

/-! ### Two runs -/

/-- A goroutine that is in no call and handles no frame. -/
def Resting : Pc → Bool
  | .idle => true
  | .read => true
  | .tick => true
  | .exited => true
  | _ => false

/-- `Session.Close` has returned, and nothing is in progress. -/
def Finished (s : Session) : Prop := s.panic = none ∧ s.closeOnce = .done ∧ ∀ g, Resting (s.pc g) = true

/-- The application closes the session, and `readLoop` leaves. -/
def closesSession : List Act :=
  [.close (.app 0), .closeStreams (.app 0), .closeAccept (.app 0), .closeConn (.app 0), .recvErr, .close .readLoop]

/-- The peer opens a stream, and the application accepts it. -/
def acceptedRun : List Act := [.recv ⟨frameStreamOpen, 2, []⟩, .enqueue, .acceptStream (.app 0)]

/-- Teardown after `acceptedRun`. -/
theorem acceptedRun_ended : ∃ s, exec step (newSession true) (acceptedRun ++ closesSession) = some s ∧
    (s.heap 0).handed = true ∧ s.streams = ∅ ∧ (s.heap 0).readChan.closed = true := by
  obtain ⟨s, hs, ho, hfresh, hh⟩ := exists_of_any
    (P := fun s : Session => s.closeOnce = .done ∧ s.fresh = 1 ∧ (s.heap 0).handed = true)
    (show (exec step (newSession true) (acceptedRun ++ closesSession)).any _ = true by decide)
  obtain ⟨hempty, hall⟩ := (tidy_iff_never_lost hs).2 (by decide) ho
  exact ⟨s, hs, hh, hempty, (hall 0 (by rw [hfresh]; exact Nat.one_pos)).1⟩

/-- The peer opens a stream twice before the application closes the session. -/
def lostRun : List Act := acceptedRun ++ [.recv ⟨frameStreamOpen, 2, []⟩, .enqueue] ++ closesSession

/-- **A stream that nobody closes**: after `lostRun` everything has come to rest, and a `Read`
on the first of the two streams waits for good. -/
theorem lostRun_blocks : ∃ s, exec step (newSession true) lostRun = some s ∧ s.Finished ∧
    0 < s.fresh ∧ (s.heap 0).readChan.closed = false ∧ (s.heap 0).handed = true ∧ (s.heap 0).read 1 = none := by
  obtain ⟨s, hs, ⟨hpanic, ho, hread, hping, happ⟩, hrest⟩ := exists_of_any (P := fun s : Session =>
      (s.panic = none ∧ s.closeOnce = .done ∧ Resting (s.pc .readLoop) = true ∧
        Resting (s.pc .pingLoop) = true ∧ Resting (s.pc (.app 0)) = true) ∧
      0 < s.fresh ∧ (s.heap 0).readChan.closed = false ∧ (s.heap 0).handed = true ∧ (s.heap 0).read 1 = none)
    (show (exec step (newSession true) lostRun).any _ = true by decide)
  refine ⟨s, hs, ⟨hpanic, ho, fun g => ?_⟩, hrest⟩
  cases g with
  | readLoop => exact hread
  | pingLoop => exact hping
  | app n =>
    cases n with
    | zero => exact happ
    | succ n =>
      have hstill : s.pc (.app (n + 1)) = .idle := by
        refine exec_pc ?_ (newSession_valid true) hs
        simp [lostRun, acceptedRun, closesSession, Act.gid]
      rw [hstill]
      rfl

end Hawal.Mux.Session
