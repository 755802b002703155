import Hawal.Mux.Moves
import Hawal.Lib.Tally

/-!
# Closing once

Five pieces of code take a stream out of the table and close its `readChan`: `closeStream` for its
four callers, `readLoop` on a `FrameStreamClose`, and `Session.Close`. An entry of the table is
the only right to close a `readChan`, and it is given up in the section that closes (`Valid`).
`closeStream` is the only one of them that sends a `FrameStreamClose`, and owes one for each entry
that it takes. So a close frame that was sent, one that is owed and an entry that is left are each
paid for by a registration of their own (`Books`).

`close_once_and_never_echo` is what follows for one session whatever its peer sends, and for two
sessions that are each other's.
-/

namespace Hawal.Mux

open Hawal.Lib Hawal.Transport

/-- A goroutine that has taken an entry with this id, before its close frame. -/
def Pc.owes (id : UInt32) : Pc → Bool
  | .waitMu (.closeFrame id' _) => decide (id' = id)
  | .locked (.closeFrame id' _) => decide (id' = id)
  | _ => false

theorem Pc.owes_iff {p : Pc} {id : UInt32} :
    p.owes id = true ↔ ∃ why, p = .waitMu (.closeFrame id why) ∨ p = .locked (.closeFrame id why) := by
  constructor
  · intro h
    unfold Pc.owes at h
    split at h
    · rename_i id' why
      exact ⟨why, .inl (by rw [of_decide_eq_true h])⟩
    · rename_i id' why
      exact ⟨why, .inr (by rw [of_decide_eq_true h])⟩
    · cases h
  · rintro ⟨why, rfl | rfl⟩ <;> simp [Pc.owes]

theorem Pc.job_eq_some {p : Pc} {j : Job} : p.job = some j ↔ p = .waitMu j ∨ p = .locked j ∨ p = .writing j := by
  cases p <;> simp [Pc.job]

namespace Session

/-- How many streams were registered under the id. -/
def registered (id : UInt32) (s : Session) : ℕ := (List.range s.fresh).countP fun r => decide ((s.heap r).id = id)

/-- The table has an entry with the id. -/
def hasEntry (id : UInt32) (s : Session) : Bool := (s.streams.lookup id).isSome

/-- The step begins a `WriteFrame` of a `FrameStreamClose` with the id. -/
def sendsClose (id : UInt32) (s : Session) : Act → Bool
  | .beginFrame g =>
    match s.pc g with
    | .locked (.closeFrame id' _) => decide (id' = id)
    | _ => false
  | _ => false

/-- How many such frames a run sends, failed writes included. -/
def closesSent (id : UInt32) (s : Session) (as : List Act) : ℕ := countAlong step (sendsClose id) s as

/-- No goroutine has come to write anything. -/
structure Silent (s s' : Session) : Prop where
  pc : s'.pc = s.pc
  writeMu : s'.writeMu = s.writeMu
  sent : s'.sent = s.sent

variable {s s' : Session} {a : Act} {id : UInt32}

/-! ### One step -/

/-- Registrations are never taken back, and a step makes at most one. -/
theorem registered_step (hv : s.Valid) (h : s.Trans a s') (id : UInt32) :
    s'.registered id = s.registered id + (decide (s'.fresh = s.fresh + 1 ∧ (s'.heap s.fresh).id = id)).toNat := by
  obtain ⟨hfresh, hids⟩ := h.entered hv
  have hold : ((List.range s.fresh).countP fun r => decide ((s'.heap r).id = id)) = s.registered id := by
    refine List.countP_congr fun r hr => ?_
    rw [(hids r (List.mem_range.mp hr)).1]
  unfold registered at hold ⊢
  rcases hfresh with hf | ⟨hf, -⟩
  · simp [hf, hold]
  · rw [hf, List.range_succ, List.countP_append, hold, List.countP_singleton]
    by_cases hid : (s'.heap s.fresh).id = id <;> simp [hid]

/-- When the ids are apart, an id is registered once. -/
theorem Unique.registered_le (hu : s.Unique) (id : UInt32) : s.registered id ≤ 1 := by
  have hnd : ((List.range s.fresh).filter fun r => decide ((s.heap r).id = id)).Nodup := List.nodup_range.filter _
  rw [registered, List.countP_eq_length_filter, ← List.toFinset_card_of_nodup hnd, Finset.card_le_one]
  intro r hr r' hr'
  simp only [List.mem_toFinset, List.mem_filter, List.mem_range, decide_eq_true_eq] at hr hr'
  exact hu hr.1 hr'.1 (hr.2.trans hr'.2.symm)

/-- An entry that is there after a step was there before, or is paid for by a registration. -/
theorem hasEntry_step (hv : s.Valid) (h : s.Trans a s') (hv' : s'.Valid) (id : UInt32) :
    (s'.hasEntry id).toNat + s.registered id ≤ (s.hasEntry id).toNat + s'.registered id := by
  rw [registered_step hv h id]
  cases hentry : s'.hasEntry id with
  | false =>
    rw [Bool.toNat_false]
    omega
  | true =>
    obtain ⟨r, hr⟩ := Option.isSome_iff_exists.mp hentry
    rcases h.lookup hv hr with hl | ⟨rfl, hfresh⟩
    · have hold : s.hasEntry id = true := by
        unfold hasEntry
        rw [hl]
        rfl
      rw [hold]
      omega
    · have hid : (s'.heap s.fresh).id = id := (hv'.entry hr).2.1
      simp only [hfresh, hid, and_self, decide_true, Bool.toNat_true]
      omega

theorem sendsClose_iff : s.sendsClose id a = true ↔
    ∃ g why, a = .beginFrame g ∧ s.pc g = .locked (.closeFrame id why) := by
  constructor
  · intro h
    cases a with
    | beginFrame g =>
      simp only [sendsClose] at h
      split at h
      · rename_i id' why hg
        exact ⟨g, why, rfl, by rw [hg, of_decide_eq_true h]⟩
      · cases h
    | _ => cases h
  · rintro ⟨g, why, rfl, hg⟩
    simp [sendsClose, hg]

/-- A goroutine is rid of a close frame by sending it. -/
theorem owes_of_sends (h : s.Trans a s') (hsends : s.sendsClose id a = true) :
    (s.pc a.gid).owes id = true ∧ (s'.pc a.gid).owes id = false := by
  obtain ⟨g, why, rfl, hg⟩ := sendsClose_iff.mp hsends
  refine ⟨Pc.owes_iff.mpr ⟨why, .inr hg⟩, ?_⟩
  obtain ⟨-, -, hlocked, -⟩ := h.next
  rcases hlocked _ hg with ⟨-, rfl⟩ | ⟨hwants, -⟩
  · show ((s.goto g (.writing (.closeFrame id why))).pc g).owes id = false
    rw [goto_self]
    rfl
  · cases hwants

/-- It comes to owe one only by taking the entry. -/
theorem owes_of_takes (hv : s.Valid) (h : s.Trans a s') (howes : (s'.pc a.gid).owes id = true) :
    (s.pc a.gid).owes id = true ∨ ∃ g why r, a = .dropEntry g ∧ s.pc g = .closing id why ∧
      s.streams.lookup id = some r ∧
        s' = (s.drop id r (.closeStream why)).goto g (.waitMu (.closeFrame id why)) := by
  obtain ⟨why, hp⟩ := Pc.owes_iff.mp howes
  have hjob : (s'.pc a.gid).job = some (.closeFrame id why) :=
    Pc.job_eq_some.mpr (hp.imp_right .inl)
  generalize hj : Job.closeFrame id why = j at hjob
  generalize hg : a.gid = g at hjob
  cases h.job hv hjob with
  | keeps hold =>
    subst hj hg
    rcases Pc.job_eq_some.mp hold with hold | hold | hold
    · exact .inl (Pc.owes_iff.mpr ⟨why, .inl hold⟩)
    · exact .inl (Pc.owes_iff.mpr ⟨why, .inr hold⟩)
    · -- the end of the write returns to the caller
      obtain ⟨-, -, -, hwriting⟩ := h.next
      obtain ⟨ok, rfl, -⟩ := hwriting _ hold
      exact absurd hjob (fun hj => (closeReturn_plain _ _ why).job_ne hj)
  | drops hclosing hj' =>
    rw [← hj, Job.closeFrame.injEq] at hj'
    obtain ⟨rfl, rfl⟩ := hj'
    cases h with
    | dropEntry hpc hl =>
      rw [hclosing, Pc.closing.injEq] at hpc
      obtain ⟨rfl, rfl⟩ := hpc
      exact .inr ⟨_, _, _, rfl, hclosing, hl, rfl⟩
    | dropMissing hpc hl => exact absurd hjob (fun hj => (closeReturn_plain _ _ _).job_ne hj)
  | goesOn _ hj' => exact nomatch hj.trans hj'
  | opens hj' => exact nomatch hj.trans hj'
  | writes _ hj' => exact nomatch hj.trans hj'
  | answers hj' => exact nomatch hj.trans hj'
  | pings hj' => exact nomatch hj.trans hj'

/-! ### The books -/

/-- Of the streams registered under the id, `n` have had their close frame sent, some goroutines
owe one, and one may still be in the table. -/
structure Books (id : UInt32) (n : ℕ) (s : Session) : Prop where
  valid : s.Valid
  balance : ∃ M : Finset Gid, Exactly M (fun g => (s.pc g).owes id) ∧
    n + M.card + (s.hasEntry id).toNat ≤ s.registered id

theorem newSession_books (id : UInt32) (isServer : Bool) : Books id 0 (newSession isServer) where
  valid := newSession_valid isServer
  balance := by
    refine ⟨∅, Exactly.empty fun g => ?_, by simp [newSession, hasEntry]⟩
    cases g <;> rfl

/-- Fewer close frames are no harm. -/
theorem Books.of_le {m n : ℕ} (h : Books id n s) (hle : m ≤ n) : Books id m s := by
  obtain ⟨hv, M, hM, hbalance⟩ := h
  exact ⟨hv, M, hM, by omega⟩

/-- Every step keeps the books. -/
theorem Books.step {n : ℕ} (h : Books id n s) (hs : s.step a = some s') :
    Books id (n + (s.sendsClose id a).toNat) s' := by
  obtain ⟨hv, M, hM, hbalance⟩ := h
  obtain ⟨-, ht⟩ := trans_of_step hs
  have hv' := hv.step hs
  refine ⟨hv', ?_⟩
  have hothers : ∀ g, g ≠ a.gid → (s'.pc g).owes id = (s.pc g).owes id := fun g hg => by rw [(ht.others hv hg).1]
  obtain ⟨M', hM', hcard⟩ := hM.update hothers
  refine ⟨M', hM', ?_⟩
  have hentry := hasEntry_step hv ht hv' id
  cases hsends : s.sendsClose id a with
  | true =>
    obtain ⟨hold, hnew⟩ := owes_of_sends ht hsends
    simp only [hold, hnew, Bool.toNat_true, Bool.toNat_false] at hcard ⊢
    omega
  | false =>
    cases hnew : (s'.pc a.gid).owes id with
    | false =>
      simp only [hnew, Bool.toNat_false] at hcard ⊢
      omega
    | true =>
      rcases owes_of_takes hv ht hnew with hold | ⟨g, why, r, rfl, hg, hl, rfl⟩
      · simp only [hold, hnew, Bool.toNat_true, Bool.toNat_false] at hcard ⊢
        omega
      · -- what was an entry is now owed
        have hthere : s.hasEntry id = true := by rw [hasEntry, hl]; rfl
        have hgone : ((s.drop id r (.closeStream why)).goto g (.waitMu (.closeFrame id why))).hasEntry id = false := by
          simp [hasEntry, Session.goto, Session.drop]
        have hmore := registered_step hv ht id
        simp only [hnew, hthere, hgone, Bool.toNat_true, Bool.toNat_false] at hcard hbalance ⊢
        omega

/-- The close frames that a run sends are paid for. -/
theorem closesSent_le {isServer : Bool} {as : List Act} (h : exec step (newSession isServer) as = some s)
    (id : UInt32) : closesSent id (newSession isServer) as ≤ s.registered id := by
  have hbooks : Books id (0 + closesSent id (newSession isServer) as) s :=
    exec_count (fun _ _ _ _ hb hs => hb.step hs) (newSession_books id isServer) h
  obtain ⟨-, M, -, hbalance⟩ := hbooks
  omega

/-- `readLoop` handles a `FrameStreamClose` without writing anything. -/
theorem recv_close_silent (hv : s.Valid) {f : Frame} (hf : f.type = frameStreamClose)
    (hs : s.step (.recv f) = some s') :
    Silent s s' := by
  obtain ⟨-, ht⟩ := trans_of_step hs
  cases ht
  rcases s.dispatch_cases f with ⟨ho, -⟩ | ⟨r, hd, -⟩ | ⟨r, -, hl, hd⟩ | ⟨hp, -⟩ | ⟨-, -, -, hd⟩
  · exact absurd (hf.symm.trans ho) (by decide)
  · exact absurd (hf.symm.trans hd) (by decide)
  · have hv' : (s.heard f).Valid := ⟨hv.entry, hv.works, hv.queued, hv.handed, hv.queue⟩
    rw [hd, hv'.drop_eq hl]
    exact ⟨rfl, rfl, rfl⟩
  · exact absurd (hf.symm.trans hp) (by decide)
  · rw [hd]
    exact ⟨rfl, rfl, rfl⟩

end Session

/-! ### Two sessions -/

namespace Pair

variable {cfg : Config} {p p' : Pair} {e : Event} {x : Side} {id : UInt32} {n : ℕ}

/-- The event begins a `WriteFrame` of a `FrameStreamClose` with the id, on the side `x`. -/
def sendsClose (x : Side) (id : UInt32) (p : Pair) : Event → Bool
  | .beginFrame y g _ => decide (y = x) && (p y).sess.sendsClose id (.beginFrame g)
  | _ => false

/-- How many such frames the side sends in a run. -/
def closesSent (cfg : Config) (x : Side) (id : UInt32) (p : Pair) (es : List Event) : ℕ :=
  countAlong (step cfg) (sendsClose x id) p es

/-- Every step of the two keeps books that leave it out. -/
theorem books_of_step (h : Session.Books id n (p x).sess) (hs : p.step cfg e = some p') :
    Session.Books id n (p' x).sess := by
  obtain ⟨z, hother, hz⟩ := (trans_of_step hs).sess
  rcases Side.eq_or_eq_other z x with rfl | rfl
  · rcases hz with hz | ⟨a, ha, -⟩
    · exact hz ▸ h
    · exact (h.step ha).of_le (Nat.le_add_right n _)
  · exact hother ▸ h

/-- And it keeps those of either side that count it. -/
theorem books_step (h : Session.Books id n (p x).sess) (hs : p.step cfg e = some p') :
    Session.Books id (n + (p.sendsClose x id e).toNat) (p' x).sess := by
  cases hsends : p.sendsClose x id e with
  | false => exact books_of_step h hs
  | true =>
    cases e with
    | beginFrame y g draws =>
      simp only [sendsClose, Bool.and_eq_true, decide_eq_true_eq] at hsends
      obtain ⟨rfl, hsends⟩ := hsends
      cases trans_of_step hs with
      | beginFrame hlt hpc hstep =>
        rw [emit_self, ← hsends]
        exact h.step hstep
    | _ => cases hsends

/-- The close frames that a side sends are paid for by what it registers. -/
theorem closesSent_le {es : List Event} (h : exec (step cfg) newPair es = some p) (x : Side) (id : UInt32) :
    closesSent cfg x id newPair es ≤ (p x).sess.registered id := by
  have h0 : Session.Books id 0 (newPair x).sess := Session.newSession_books id _
  have hbooks : Session.Books id (0 + closesSent cfg x id newPair es) (p x).sess :=
    exec_count (I := fun n p => Session.Books id n (p x).sess) (fun _ _ _ _ hb hs => books_step hb hs) h0 h
  obtain ⟨-, M, -, hbalance⟩ := hbooks
  omega

/-- **Closing is exactly-once and never echoes.** Whatever frames a session gets and however its
goroutines take turns, no channel is closed twice, an id has at most as many close frames as
registrations, and nothing is written for a close frame. So two sessions do not send each other
close frames for long: each side sends one for a stream that it registered, and one for an id as
long as ids are not given twice. -/
theorem close_once_and_never_echo :
    (∀ isServer as s, exec Session.step (newSession isServer) as = some s →
      s.panic ≠ some .closeOfClosed ∧
      (∀ id, Session.closesSent id (newSession isServer) as ≤ s.registered id) ∧
      ∀ f s', f.type = frameStreamClose → s.step (.recv f) = some s' → s.Silent s') ∧
    ∀ cfg es p, exec (step cfg) newPair es = some p → ∀ x id,
      closesSent cfg x id newPair es ≤ (p x).sess.registered id ∧
      (Roomy p → closesSent cfg x id newPair es ≤ 1) := by
  constructor
  · intro isServer as s h
    obtain ⟨hv, hp⟩ := Session.exec_newSession_valid h
    exact ⟨hp, Session.closesSent_le h, fun f s' hf hs => Session.recv_close_silent hv hf hs⟩
  · intro cfg es p h x id
    have hle := closesSent_le h x id
    refine ⟨hle, fun hb => hle.trans ?_⟩
    exact Session.Unique.registered_le ((exec_newPair_linked h hb).sound x).unique id

/-- The peer opens an id that is in use, closes it twice and opens it again; then the application
closes the second of the three streams, and the third loses its entry. -/
def reopenedRun : List Act :=
  [.openStream (.app 0) [], .lock (.app 0), .beginFrame (.app 0), .endFrame (.app 0) true,
    .recv ⟨frameStreamOpen, 3, []⟩, .enqueue, .acceptStream (.app 1),
    .recv ⟨frameStreamClose, 3, []⟩, .recv ⟨frameStreamClose, 3, []⟩,
    .recv ⟨frameStreamOpen, 3, []⟩, .enqueue, .closeStream (.app 1) 1,
    .dropEntry (.app 1), .lock (.app 1), .beginFrame (.app 1), .endFrame (.app 1) true]

/-- The client closes the stream that the server has opened, and the server is told. -/
def closedStreamRun : List Event :=
  opensStream ++ .act .client (.closeStream (.app 0) 0) :: .act .client (.dropEntry (.app 0)) ::
    writesFrame .client (.app 0) 44 ++ readsFrame .server 28

/-- The close frames of `reopenedRun` and of `closedStreamRun`. -/
theorem reopenedRun_closes_once :
    (∃ s, exec Session.step (newSession true) reopenedRun = some s ∧ s.registered 3 = 3 ∧
      s.panic ≠ some .closeOfClosed ∧ Session.closesSent 3 (newSession true) reopenedRun ≤ s.registered 3) ∧
    ∃ p, exec (step (sampleConfig 100)) newPair closedStreamRun = some p ∧
      (p .server).sess.streams.keys = [] ∧ (p .client).sess.streams.keys = [] ∧
      closesSent (sampleConfig 100) .client 3 newPair closedStreamRun ≤ 1 := by
  constructor
  · obtain ⟨s, hs, hreg⟩ := exists_of_any (P := fun s : Session => s.registered 3 = 3)
      (show (exec Session.step (newSession true) reopenedRun).any _ = true by decide +kernel)
    obtain ⟨hp, hle, -⟩ := close_once_and_never_echo.1 true reopenedRun s hs
    exact ⟨s, hs, hreg, hp, hle 3⟩
  · obtain ⟨p, hp, hserver, hclient, hopens⟩ := exists_of_any (P := fun p : Pair =>
        (p .server).sess.streams.keys = [] ∧ (p .client).sess.streams.keys = [] ∧
          (p .server).sess.opens ≤ 2 ^ 31 ∧ (p .client).sess.opens ≤ 2 ^ 31)
      (show (exec (step (sampleConfig 100)) newPair closedStreamRun).any _ = true by decide +kernel)
    have hroomy : Roomy p := fun x => by
      cases x with
      | server => exact hopens.1
      | client => exact hopens.2
    exact ⟨p, hp, hserver, hclient, (close_once_and_never_echo.2 _ _ _ hp .client 3).2 hroomy⟩

end Pair

end Hawal.Mux
