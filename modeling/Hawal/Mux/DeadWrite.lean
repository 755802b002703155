import Hawal.Mux.Moves

/-!
# Writing to a stream that is gone

That a stream is at its end is recorded in three places: it is no longer in the table, its
own `closed` is set, the session's `closed` is set. `Stream.Write` asks for the second and
`writeStreamData` for the third, and nobody for the first. So a `Write` on a stream that
has left the table is refused (`Refused`) exactly when `Close` was called on the stream or
`Session.Close` has come past the table: `write_refused_iff`. When the peer has closed the
stream, or `readLoop` has given it up, its data still goes out (`peerClosedRun_writes`).
-/

namespace Hawal.Mux.Session

open Hawal.Lib Hawal.Transport

variable {s s' : Session} {a : Act} {g : Gid}

/-- The `Write` that `g` is in is refused, however things go on: `g` begins no frame before it
returns, and then it returns an error with nothing written. -/
def Refused (s : Session) (g : Gid) : Prop :=
  ∀ as t, exec step s as = some t → (∀ a ∈ as, a.gid = g → a.calls = false) →
    (∀ j, t.pc g ≠ .writing j) ∧ (t.pc g = .idle → t.ret g = some (.wrote 0 true))

/-- What an invariant of `g`'s steps inside the call says of all continuations. -/
theorem refused_of_inv {I : Session → Prop} (h : I s)
    (hI : ∀ {s a s'}, I s → s.step a = some s' → (a.gid = g → a.calls = false) → I s')
    (hw : ∀ {s j}, I s → s.pc g ≠ .writing j) (hr : ∀ {s}, I s → s.pc g = .idle → s.ret g = some (.wrote 0 true)) :
    s.Refused g := by
  intro as t ht ha
  have hend : I t := by
    induction as generalizing s with
    | nil =>
      rw [exec_nil, Option.some.injEq] at ht
      exact ht ▸ h
    | cons a as ih =>
      obtain ⟨u, hu, ht⟩ := exec_cons_eq_some.mp ht
      exact ih (hI h hu (ha a List.mem_cons_self)) ht fun b hb => ha b (List.mem_cons_of_mem _ hb)
  exact ⟨fun _ => hw hend, hr hend⟩

/-- `Session.Close` is not taken back. -/
theorem Trans.closed (hv : s.Valid) (h : s.Trans a s') (hc : s.closed = true) : s'.closed = true := by
  rcases h.shutdown hv with ⟨-, h₂⟩ | ⟨-, -, -, h₂⟩ | ⟨-, -, -, h₂⟩ | ⟨-, -, -, h₂⟩ | ⟨-, -, -, h₂⟩
  · exact h₂.trans hc
  · exact h₂.trans hc
  · exact h₂
  · exact h₂.trans hc
  · exact h₂.trans hc

/-- A goroutine that is in no call stays so. -/
theorem Trans.idle (hv : s.Valid) (h : s.Trans a s') (ha : a.gid = g → a.calls = false) (hp : s.pc g = .idle) :
    s'.pc g = .idle ∧ s'.ret g = s.ret g := by
  by_cases hg : g = a.gid
  · subst hg
    exact absurd (h.next.1 hp) (by simp [ha rfl])
  · obtain ⟨hpc, hret⟩ := h.others hv hg
    exact ⟨hpc.trans hp, hret⟩

/-- A `Write` that has returned an error. -/
theorem refused_of_returned (hv : s.Valid) (hp : s.pc g = .idle) (hret : s.ret g = some (.wrote 0 true)) :
    s.Refused g := by
  refine refused_of_inv (I := fun s => s.Valid ∧ s.pc g = .idle ∧ s.ret g = some (.wrote 0 true)) ⟨hv, hp, hret⟩
    ?_ ?_ ?_
  · rintro s a s' ⟨hv, hp, hret⟩ hs ha
    obtain ⟨hp', hret'⟩ := (trans_of_step hs).2.idle hv ha hp
    exact ⟨hv.step hs, hp', hret'.trans hret⟩
  · rintro s j ⟨-, hp, -⟩
    simp [hp]
  · exact fun h _ => h.2.2

/-- **In a closed session.** -/
theorem refused_of_closed {r : Ref} {id : UInt32} {data : List UInt8} (hv : s.Valid) (hc : s.closed = true)
    (hp : s.pc g = .waitMu (.data r id data 0)) : s.Refused g := by
  refine refused_of_inv (I := fun s => s.Valid ∧ s.closed = true ∧ (s.pc g = .waitMu (.data r id data 0) ∨
    s.pc g = .locked (.data r id data 0) ∨ s.pc g = .idle ∧ s.ret g = some (.wrote 0 true)))
    ⟨hv, hc, .inl hp⟩ ?_ ?_ ?_
  · rintro s a s' ⟨hv, hc, hpc⟩ hs ha
    have ht := (trans_of_step hs).2
    refine ⟨hv.step hs, ht.closed hv hc, ?_⟩
    by_cases hg : g = a.gid
    · subst hg
      rcases hpc with hpc | hpc | ⟨hpc, hret⟩
      · rw [ht.next.2.1 _ hpc]
        exact .inr (.inl (by simp [Session.acquire, Session.modify]))
      · rcases ht.next.2.2.1 _ hpc with ⟨hw, -⟩ | ⟨-, hgive⟩
        · simp [Session.wants, hc] at hw
        · rw [hgive]
          exact .inr (.inr (by simp [Session.giveUp, Session.answer, Session.release, hc]))
      · obtain ⟨hpc', hret'⟩ := ht.idle hv ha hpc
        exact .inr (.inr ⟨hpc', hret'.trans hret⟩)
    · obtain ⟨hpc', hret'⟩ := ht.others hv hg
      rwa [hpc', hret']
  · rintro s j ⟨-, -, hpc | hpc | ⟨hpc, -⟩⟩ <;> simp [hpc]
  · rintro s ⟨-, -, hpc | hpc | ⟨-, hret⟩⟩ hidle
    · cases hpc.symm.trans hidle
    · cases hpc.symm.trans hidle
    · exact hret

/-! ### In an open session -/

/-- A run of the steps of one goroutine inside a call, with nothing closed by it. -/
def Continues (s : Session) (g : Gid) (t : Session) : Prop :=
  t.panic = none ∧ t.closed = s.closed ∧ ∃ as, exec step s as = some t ∧ ∀ a ∈ as, a.gid = g ∧ a.calls = false

theorem Continues.refl (hp : s.panic = none) : s.Continues g s := ⟨hp, rfl, [], rfl, by simp⟩

theorem Continues.step {t : Session} (hs : s.step a = some s') (ha : a.gid = g ∧ a.calls = false)
    (hc : s'.closed = s.closed) (h : s'.Continues g t) : s.Continues g t := by
  obtain ⟨hp, hc', as, hrun, has⟩ := h
  refine ⟨hp, hc'.trans hc, a :: as, exec_cons_eq_some.mpr ⟨s', hs, hrun⟩, ?_⟩
  intro b hb
  rcases List.mem_cons.mp hb with rfl | hb
  · exact ha
  · exact has b hb

/-- A goroutine that has nothing more to write releases `writeMu`. -/
theorem exists_release_of_not_wants {j : Job} (hp : s.panic = none) (hpc : s.pc g = .locked j)
    (hw : s.wants j = false) : ∃ t, s.Continues g t ∧ t.writeMu = none := by
  have hs : s.step (.unlock g) = some (s.giveUp g j) := by simp [Session.step, Session.act, hp, hpc, hw]
  have hkept : (s.giveUp g j).panic = none ∧ (s.giveUp g j).closed = s.closed ∧ (s.giveUp g j).writeMu = none := by
    cases j <;> exact ⟨hp, rfl, rfl⟩
  exact ⟨_, .step hs ⟨rfl, rfl⟩ hkept.2.1 (.refl hkept.1), hkept.2.2⟩

/-- Whoever writes data can write all of it, and then releases `writeMu`. -/
theorem exists_release_of_data {r : Ref} {id : UInt32} {data : List UInt8} {n : ℕ} :
    ∀ {s : Session} {offset : ℕ}, data.length - offset ≤ n → s.panic = none →
      s.pc g = .locked (.data r id data offset) → ∃ t, s.Continues g t ∧ t.writeMu = none := by
  induction n with
  | zero =>
    intro s offset hn hp hpc
    refine exists_release_of_not_wants hp hpc ?_
    simp only [Session.wants, Bool.and_eq_false_iff, decide_eq_false_iff_not]
    omega
  | succ n ih =>
    intro s offset hn hp hpc
    cases hw : s.wants (.data r id data offset) with
    | false => exact exists_release_of_not_wants hp hpc hw
    | true =>
      have hlt : offset < data.length := by
        simp only [Session.wants, Bool.and_eq_true, decide_eq_true_eq] at hw
        exact hw.1
      have hpos : 0 < chunkSize data offset := by
        rw [chunkSize, maxPayloadSize]
        omega
      set u := s.beginWrite g (.data r id data offset)
      set v := u.endWrite g (.data r id data offset) true
      have hu : s.step (.beginFrame g) = some u := by simp [Session.step, Session.act, hp, hpc, hw, u]
      have hpu : u.panic = none := hp
      have hpcu : u.pc g = .writing (.data r id data offset) := by simp [u, Session.beginWrite]
      have hv : u.step (.endFrame g true) = some v := by simp [Session.step, Session.act, hpu, hpcu, v]
      have hpcv : v.pc g = .locked (.data r id data (offset + chunkSize data offset)) := by
        simp [v, Session.endWrite]
      have hpv : v.panic = none := by simpa [v, Session.endWrite, Session.goto] using hpu
      have hcv : v.closed = u.closed := by simp [v, Session.endWrite, Session.goto]
      obtain ⟨t, ht, hmu⟩ := ih (by omega) hpv hpcv
      exact ⟨t, .step hu ⟨rfl, rfl⟩ rfl (.step hv ⟨rfl, rfl⟩ hcv ht), hmu⟩

/-- A `WriteFrame` in progress can succeed. -/
theorem exists_release_of_writing {j : Job} (hp : s.panic = none) (hpc : s.pc g = .writing j) :
    ∃ t, s.Continues g t ∧ t.writeMu = none := by
  have hs : s.step (.endFrame g true) = some (s.endWrite g j true) := by
    simp [Session.step, Session.act, hp, hpc]
  have hkept : (s.endWrite g j true).panic = none ∧ (s.endWrite g j true).closed = s.closed := by
    cases j with
    | closeFrame id why => cases why <;> exact ⟨hp, rfl⟩
    | _ => exact ⟨hp, rfl⟩
  have free : (s.endWrite g j true).writeMu = none → ∃ t, s.Continues g t ∧ t.writeMu = none :=
    fun hmu => ⟨_, .step hs ⟨rfl, rfl⟩ hkept.2 (.refl hkept.1), hmu⟩
  cases j with
  | data r id data offset =>
    obtain ⟨t, ht, hmu⟩ := exists_release_of_data (g := g) le_rfl hkept.1 (goto_self g _)
    exact ⟨t, .step hs ⟨rfl, rfl⟩ hkept.2 ht, hmu⟩
  | closeFrame id why => exact free (by cases why <;> rfl)
  | _ => exact free rfl

/-- **The holder of `writeMu` can come to release it.** -/
theorem exists_release (hl : s.Locked) (hp : s.panic = none) (hm : s.writeMu = some g) :
    ∃ t, s.Continues g t ∧ t.writeMu = none := by
  have hh := (hl g).mpr hm
  cases hpc : s.pc g with
  | writing j => exact exists_release_of_writing hp hpc
  | locked j =>
    cases hw : s.wants j with
    | false => exact exists_release_of_not_wants hp hpc hw
    | true =>
      have hs : s.step (.beginFrame g) = some (s.beginWrite g j) := by
        simp [Session.step, Session.act, hp, hpc, hw]
      obtain ⟨t, ht, hmu⟩ := exists_release_of_writing (s := s.beginWrite g j) (g := g) hp (goto_self g _)
      exact ⟨t, .step hs ⟨rfl, rfl⟩ rfl ht, hmu⟩
  | _ =>
    rw [hpc] at hh
    exact hh.elim

/-- In an open session the data can go out. -/
theorem not_refused_of_open {r : Ref} {id : UInt32} {data : List UInt8} (hv : s.Valid) (hl : s.Locked)
    (hpanic : s.panic = none) (hc : s.closed = false) (hd : data ≠ [])
    (hp : s.pc g = .waitMu (.data r id data 0)) : ¬ s.Refused g := by
  -- first `writeMu` becomes free
  have hfree : ∃ t, t.Valid ∧ t.panic = none ∧ t.closed = false ∧ t.writeMu = none ∧
      t.pc g = .waitMu (.data r id data 0) ∧ ∃ as, exec step s as = some t ∧ ∀ a ∈ as, a.gid = g → a.calls = false := by
    cases hm : s.writeMu with
    | none => exact ⟨s, hv, hpanic, hc, hm, hp, [], rfl, by simp⟩
    | some g' =>
      have hne : g' ≠ g := by
        rintro rfl
        have hh := (hl g').mpr hm
        rw [hp] at hh
        exact hh
      obtain ⟨t, ⟨htp, htc, as, hrun, has⟩, hmu⟩ := exists_release hl hpanic hm
      have hvt : t.Valid := exec_inv (fun _ _ _ hv hs => hv.step hs) hv hrun
      refine ⟨t, hvt, htp, htc.trans hc, hmu, ?_, as, hrun, fun a ha _ => (has a ha).2⟩
      exact (exec_pc (fun a ha he => hne ((has a ha).1.symm.trans he.symm)) hv hrun).trans hp
  obtain ⟨t, hvt, htp, htc, hmu, htpc, as, hrun, has⟩ := hfree
  intro href
  set u := t.acquire g (.data r id data 0)
  have hu : t.step (.lock g) = some u := by simp [Session.step, Session.act, htp, htpc, hmu, u]
  have hpu : u.panic = none := by simpa [u, Session.acquire, Session.modify, Session.goto] using htp
  have hpcu : u.pc g = .locked (.data r id data 0) := by simp [u, Session.acquire, Session.modify]
  have hw : u.wants (.data r id data 0) = true := by
    have hcu : u.closed = false := htc
    simp [Session.wants, hcu, List.length_pos_iff, hd]
  have hb : u.step (.beginFrame g) = some (u.beginWrite g (.data r id data 0)) := by
    simp [Session.step, Session.act, hpu, hpcu, hw]
  refine (href (as ++ [.lock g, .beginFrame g]) (u.beginWrite g (.data r id data 0)) ?_ ?_).1 (.data r id data 0)
    (goto_self g _)
  · exact exec_append_eq_some.mpr ⟨t, hrun, exec_cons_eq_some.mpr ⟨u, hu, exec_cons_eq_some.mpr ⟨_, hb, rfl⟩⟩⟩
  · intro a ha hg
    rcases List.mem_append.mp ha with ha | ha
    · exact has a ha hg
    · simp only [List.mem_cons, List.not_mem_nil, or_false] at ha
      rcases ha with rfl | rfl <;> rfl

/-- **When a `Write` is refused.** A `Write` of some data on a stream that the application has
is refused in every continuation exactly when, at its start, `Close` was called on the
stream or `Session.Close` has set `closed`; it is all the same whether the stream is in the table. -/
theorem write_refused_iff {isServer : Bool} {as : List Act} {r : Ref} {data : List UInt8}
    (h : exec step (newSession isServer) as = some s) (hd : data ≠ []) (hs : s.step (.write g r data) = some s') :
    s'.Refused g ↔ (s.heap r).closed = true ∨ s.closed = true := by
  have hinv : s.Valid ∧ s.Locked :=
    exec_inv (I := fun s => s.Valid ∧ s.Locked) (fun _ _ _ hi hs => ⟨hi.1.step hs, hi.2.step hi.1 hs⟩)
      ⟨newSession_valid isServer, newSession_locked isServer⟩ h
  obtain ⟨hpanic, ht⟩ := trans_of_step hs
  have hv' := hinv.1.step hs
  have hl' := hinv.2.step hinv.1 hs
  cases ht with
  | writeRefused _ _ hc =>
    refine iff_of_true (refused_of_returned hv' (goto_self g _) ?_) (.inl hc)
    simp [Session.answer]
  | write _ _ hc =>
    rw [hc, or_iff_right Bool.false_ne_true]
    constructor
    · intro href
      by_contra hopen
      exact not_refused_of_open hv' hl' hpanic (Bool.eq_false_iff.mpr hopen) hd (goto_self g _) href
    · exact fun hc' => refused_of_closed hv' hc' (goto_self g _)

/-- The application has a stream, closes it, and writes to it. -/
def closedRun : List Act :=
  [.openStream (.app 0) [], .lock (.app 0), .beginFrame (.app 0), .endFrame (.app 0) true, .closeStream (.app 0) 0,
    .dropEntry (.app 0), .lock (.app 0), .beginFrame (.app 0), .endFrame (.app 0) true]

/-- The `Write` after `closedRun`. -/
theorem closedRun_refused : ∃ s s', exec step (newSession true) closedRun = some s ∧
    s.streams.lookup (s.heap 0).id = none ∧ s.step (.write (.app 0) 0 [1]) = some s' ∧ s'.Refused (.app 0) := by
  obtain ⟨s, hs, hgone, hc, hw⟩ := exists_of_any (P := fun s : Session =>
      s.streams.lookup (s.heap 0).id = none ∧ (s.heap 0).closed = true ∧
        (s.step (.write (.app 0) 0 [1])).isSome = true)
    (show (exec step (newSession true) closedRun).any _ = true by decide)
  obtain ⟨s', hs'⟩ := Option.isSome_iff_exists.mp hw
  exact ⟨s, s', hs, hgone, hs', (write_refused_iff hs (by decide) hs').mpr (.inl hc)⟩

/-- The peer closes a stream. -/
def peerClosedRun : List Act :=
  [.openStream (.app 0) [], .lock (.app 0), .beginFrame (.app 0), .endFrame (.app 0) true,
    .recv ⟨frameStreamClose, 3, []⟩]

/-- The application writes a byte to it. -/
def writesByte : List Act :=
  [.write (.app 0) 0 [1], .lock (.app 0), .beginFrame (.app 0), .endFrame (.app 0) true, .unlock (.app 0)]

/-- **Data on a stream that is gone**: after `peerClosedRun` the stream has left the table, and
a `Write` to it puts its data on the wire and returns no error. -/
theorem peerClosedRun_writes : ∃ s t, exec step (newSession true) peerClosedRun = some s ∧
    s.streams.lookup (s.heap 0).id = none ∧ exec step s writesByte = some t ∧
    t.ret (.app 0) = some (.wrote 1 false) ∧ t.sent = s.sent ++ [⟨frameData, 3, [1]⟩] := by
  obtain ⟨s, hs, hgone, hwrite⟩ := exists_of_any (P := fun s : Session =>
      s.streams.lookup (s.heap 0).id = none ∧ (exec step s writesByte).any (fun t =>
        decide (t.ret (.app 0) = some (.wrote 1 false) ∧ t.sent = s.sent ++ [(⟨frameData, 3, [1]⟩ : Frame)])) = true)
    (show (exec step (newSession true) peerClosedRun).any _ = true by decide)
  obtain ⟨t, ht, hrest⟩ := exists_of_any hwrite
  exact ⟨s, t, hs, hgone, ht, hrest⟩

end Hawal.Mux.Session
