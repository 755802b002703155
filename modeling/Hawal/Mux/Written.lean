import Hawal.Mux.Announce

/-!
# What a stream sends

The data of the `Write` calls of a stream, in the order in which they took `writeMu`,
is cut into chunks and sent in frames under the stream's id. `Written` says how far
this has come: what was sent is a prefix of what was passed to `Write`, and while no
write has failed and the session is open, what is missing is what the holder of
`writeMu` has still to send (`unsent`).
-/

namespace Hawal.Mux

open Hawal.Lib Hawal.Transport

/-- The data of the stream `r` that a goroutine under `writeMu` has still to send;
`closed` is whether its session is closed. -/
def Pc.rest (closed : Bool) (r : Ref) : Pc → List UInt8
  | .locked (.data r' _ data offset) => if r' = r ∧ ¬ (offset = 0 ∧ closed = true) then data.drop offset else []
  | .writing (.data r' _ data offset) => if r' = r then data.drop (offset + chunkSize data offset) else []
  | _ => []

/-- A chunk and what comes after it. -/
theorem chunk_append (data : List UInt8) (offset : ℕ) :
    chunk data offset ++ data.drop (offset + chunkSize data offset) = data.drop offset := by
  rw [chunk, ← List.drop_drop, List.take_append_drop]

namespace Session

variable {s s' : Session}

/-- The data of the stream `r` passed to a `Write` that is under way, and still to be sent. -/
def unsent (s : Session) (r : Ref) : List UInt8 :=
  match s.writeMu with
  | some g => (s.pc g).rest s.closed r
  | none => []

/-- **What the streams have sent.** -/
structure Written (s : Session) : Prop where
  start : ∀ {g r id data offset}, s.pc g = .waitMu (.data r id data offset) → offset = 0
  sent : ∀ r < s.fresh, dataOf (s.heap r).id s.sent <+: (s.heap r).put
  going : s.writeFailed = false → ∀ r < s.fresh,
    dataOf (s.heap r).id s.sent ++ s.unsent r <+: (s.heap r).put
  whole : s.writeFailed = false → s.closed = false → ∀ r < s.fresh,
    dataOf (s.heap r).id s.sent ++ s.unsent r = (s.heap r).put

theorem newSession_written (isServer : Bool) : (newSession isServer).Written where
  start {g r id data offset} h := by cases g <;> simp [newSession, Gid.start] at h
  sent r hr := by simp [newSession] at hr
  going _ r hr := by simp [newSession] at hr
  whole _ _ r hr := by simp [newSession] at hr

/-- A goroutine that does not hold `writeMu` moves. -/
theorem unsent_goto (hl : s.Locked) {g : Gid} {p : Pc} (hg : ¬ (s.pc g).Holds) (r : Ref) :
    (s.goto g p).unsent r = s.unsent r := by
  unfold unsent
  show (match s.writeMu with
    | some g' => ((s.goto g p).pc g').rest s.closed r
    | none => []) = _
  split
  · rename_i g' hm
    have hgg : g' ≠ g := by
      rintro rfl
      exact hg ((hl g').mpr hm)
    rw [goto_of_ne p hgg]
  · rfl

theorem unsent_of_free (h : s.writeMu = none) (r : Ref) : s.unsent r = [] := by rw [unsent, h]

theorem unsent_of_holder {g : Gid} (h : s.writeMu = some g) (r : Ref) :
    s.unsent r = (s.pc g).rest s.closed r := by rw [unsent, h]

/-- Data that has still to be sent is with a goroutine. -/
theorem exists_job_of_unsent {r : Ref} (h : s.unsent r ≠ []) :
    ∃ g id data offset, (s.pc g).job = some (.data r id data offset) := by
  unfold unsent at h
  split at h
  · rename_i g _
    cases hp : s.pc g with
    | locked j =>
      cases j with
      | data r' id data offset =>
        simp only [hp, Pc.rest] at h
        split_ifs at h with hr
        · exact ⟨g, id, data, offset, by rw [hp, hr.1]; rfl⟩
        · exact absurd rfl h
      | _ => simp [hp, Pc.rest] at h
    | writing j =>
      cases j with
      | data r' id data offset =>
        simp only [hp, Pc.rest] at h
        split_ifs at h with hr
        · exact ⟨g, id, data, offset, by rw [hp, hr]; rfl⟩
        · exact absurd rfl h
      | _ => simp [hp, Pc.rest] at h
    | _ => simp [hp, Pc.rest] at h
  · exact absurd rfl h

namespace Written

/-- What `Written` depends on. -/
theorem congr (h : s.Written) (hfresh : s'.fresh = s.fresh) (hsent : s'.sent = s.sent)
    (hfailed : s'.writeFailed = false → s.writeFailed = false) (hclosed : s'.closed = s.closed)
    (hbox : ∀ r < s.fresh, (s'.heap r).id = (s.heap r).id ∧ (s'.heap r).put = (s.heap r).put)
    (hunsent : ∀ r < s.fresh, s'.writeFailed = false → s'.unsent r = s.unsent r)
    (hstart : ∀ {g r id data offset}, s'.pc g = .waitMu (.data r id data offset) → offset = 0) : s'.Written where
  start := hstart
  sent r hr := by
    rw [hfresh] at hr
    rw [(hbox r hr).1, (hbox r hr).2, hsent]
    exact h.sent r hr
  going hf r hr := by
    rw [hfresh] at hr
    rw [(hbox r hr).1, (hbox r hr).2, hsent, hunsent r hr hf]
    exact h.going (hfailed hf) r hr
  whole hf hc r hr := by
    rw [hfresh] at hr
    rw [(hbox r hr).1, (hbox r hr).2, hsent, hunsent r hr hf]
    exact h.whole (hfailed hf) (hclosed ▸ hc) r hr

/-- The fields that are not about writing. -/
theorem set {next streams acc once conn ret panic rcvd opens} (h : s.Written) :
    { s with
      nextStreamID := next, streams := streams, acceptChan := acc, closeOnce := once, connClosed := conn
      ret := ret, panic := panic, rcvd := rcvd, opens := opens : Session }.Written :=
  ⟨h.start, h.sent, h.going, h.whole⟩

/-- A goroutine that does not hold `writeMu` moves. -/
theorem goto (h : s.Written) (hl : s.Locked) {g : Gid} {p : Pc} (hg : ¬ (s.pc g).Holds)
    (hp : ∀ {r id data offset}, p = .waitMu (.data r id data offset) → offset = 0) : (s.goto g p).Written := by
  refine h.congr rfl rfl id rfl (fun _ _ => ⟨rfl, rfl⟩) (fun r _ _ => unsent_goto hl hg r)
    fun {g' r id data offset} hg' => ?_
  by_cases hgg : g' = g
  · subst hgg
    rw [goto_self] at hg'
    exact hp hg'
  · rw [goto_of_ne p hgg] at hg'
    exact h.start hg'

theorem modify (h : s.Written) {r : Ref} {f : Stream → Stream} (hid : (f (s.heap r)).id = (s.heap r).id)
    (hput : (f (s.heap r)).put = (s.heap r).put) : (s.modify r f).Written := by
  refine h.congr rfl rfl id rfl (fun r' _ => ?_) (fun _ _ _ => rfl) h.start
  by_cases hr : r' = r
  · subst hr
    rw [modify_self, hid, hput]
    exact ⟨rfl, rfl⟩
  · rw [modify_of_ne f hr]
    exact ⟨rfl, rfl⟩

/-- A new stream has passed nothing to `Write`, and nothing was sent under its id. -/
theorem enter (h : s.Written) (ha : s.Announced) (hv : s.Valid) {id : UInt32} {targetPort : List UInt8}
    (hu : (s.enter id targetPort).Unique) : (s.enter id targetPort).Written := by
  have hnil : dataOf id s.sent = [] := by
    by_contra hne
    obtain ⟨f, hf, ht, hid⟩ := exists_of_dataOf_ne_nil hne
    obtain ⟨r, hlt, hr⟩ := ha.owner hf ht
    refine hlt.ne (hu (Nat.lt_succ_of_lt hlt) (Nat.lt_succ_self _) ?_)
    rw [enter_of_ne id targetPort hlt.ne, enter_self, hr, hid]
    rfl
  have hunsent : s.unsent s.fresh = [] := by
    unfold unsent
    split
    · rename_i g hm
      have hw : ∀ {r id}, (s.pc g).stream = some (r, id) → r ≠ s.fresh := fun hs => (hv.works hs).1.ne
      unfold Pc.rest
      split
      · rename_i r id' data offset hp
        exact if_neg fun hc => hw (by rw [hp]; rfl) hc.1
      · rename_i r id' data offset hp
        exact if_neg fun hc => hw (by rw [hp]; rfl) hc
      · rfl
    · rfl
  have hnew : ∀ r, r = s.fresh →
      dataOf ((s.enter id targetPort).heap r).id s.sent ++ s.unsent r = ((s.enter id targetPort).heap r).put := by
    rintro r rfl
    rw [enter_self, hunsent, show (newStream id targetPort s.rcvd.length).id = id from rfl, hnil]
    rfl
  refine ⟨h.start, fun r hr => ?_, fun hf r hr => ?_, fun hf hc r hr => ?_⟩
  all_goals by_cases hr' : r = s.fresh
  · rw [← hnew r hr']
    exact List.prefix_append _ _
  · rw [enter_of_ne id targetPort hr']
    exact h.sent r (Nat.lt_of_le_of_ne (Nat.le_of_lt_succ hr) hr')
  · exact (hnew r hr') ▸ List.prefix_rfl
  · rw [enter_of_ne id targetPort hr']
    exact h.going hf r (Nat.lt_of_le_of_ne (Nat.le_of_lt_succ hr) hr')
  · exact hnew r hr'
  · rw [enter_of_ne id targetPort hr']
    exact h.whole hf hc r (Nat.lt_of_le_of_ne (Nat.le_of_lt_succ hr) hr')

/-- `writeMu` is taken for anything but data. -/
theorem lockOther (h : s.Written) {g : Gid} {j : Job} (hm : s.writeMu = none)
    (hj : ∀ r, (Pc.locked j).rest s.closed r = []) : { s.goto g (.locked j) with writeMu := some g }.Written := by
  refine h.congr rfl rfl id rfl (fun _ _ => ⟨rfl, rfl⟩) (fun r _ _ => ?_) fun {g' r id data offset} hg' => ?_
  · rw [unsent_of_free hm, unsent_of_holder (g := g) rfl]
    rw [show ({ s.goto g (.locked j) with writeMu := some g } : Session).pc g = .locked j from goto_self _ _]
    exact hj r
  · by_cases hgg : g' = g
    · subst hgg
      rw [show ({ s.goto g' (.locked j) with writeMu := some g' } : Session).pc g' = .locked j from
        goto_self _ _] at hg'
      cases hg'
    · exact h.start (g := g') (by rw [← hg']; exact (goto_of_ne (s := s) _ hgg).symm)

/-- A `Write` takes `writeMu`: its data is next. -/
theorem lockData (h : s.Written) {g : Gid} {r₀ : Ref} {id : UInt32} {data : List UInt8} (hm : s.writeMu = none) :
    ({ s.goto g (.locked (.data r₀ id data 0)) with writeMu := some g }.modify r₀
      fun st => { st with put := st.put ++ data }).Written := by
  set s' := ({ s.goto g (.locked (.data r₀ id data 0)) with writeMu := some g } : Session).modify r₀
    fun st => { st with put := st.put ++ data } with hs'
  have hunsent : ∀ r, s'.unsent r = if r₀ = r ∧ s.closed = false then data else [] := fun r => by
    rw [unsent_of_holder (g := g) rfl, show s'.pc g = .locked (.data r₀ id data 0) from goto_self _ _,
      show s'.closed = s.closed from rfl]
    simp [Pc.rest]
  have hid : ∀ r, (s'.heap r).id = (s.heap r).id := fun r => by
    by_cases hr : r = r₀
    · subst hr
      rw [hs', modify_self, goto_heap]
    · rw [hs', modify_of_ne _ hr, goto_heap]
  have hput : ∀ r, (s'.heap r).put = (s.heap r).put ++ if r₀ = r then data else [] := fun r => by
    by_cases hr : r = r₀
    · subst hr
      rw [hs', modify_self, goto_heap, if_pos rfl]
    · rw [hs', modify_of_ne _ hr, goto_heap, if_neg (Ne.symm hr), List.append_nil]
  have hsent : ∀ r < s.fresh, dataOf (s'.heap r).id s.sent <+: (s'.heap r).put := fun r hr => by
    rw [hid, hput]
    exact (h.sent r hr).trans (List.prefix_append _ _)
  have hwhole : s.writeFailed = false → s.closed = false → ∀ r < s.fresh,
      dataOf (s'.heap r).id s.sent ++ s'.unsent r = (s'.heap r).put := fun hf hc r hr => by
    have := h.whole hf hc r hr
    rw [unsent_of_free hm, List.append_nil] at this
    rw [hid, hput, hunsent, this]
    simp [hc]
  refine ⟨fun {g' r id' data' offset} hg' => ?_, hsent, fun hf r hr => ?_, hwhole⟩
  · by_cases hgg : g' = g
    · subst hgg
      rw [show s'.pc g' = .locked (.data r₀ id data 0) from goto_self _ _] at hg'
      cases hg'
    · exact h.start (g := g') (by rw [← hg']; exact (goto_of_ne (s := s) _ hgg).symm)
  · by_cases hc : s.closed = true
    · rw [hunsent, if_neg (by simp [hc]), List.append_nil]
      exact hsent r hr
    · exact hwhole hf (Bool.eq_false_iff.mpr hc) r hr ▸ List.prefix_rfl

theorem acquire (h : s.Written) {g : Gid} {j : Job} (hg : s.pc g = .waitMu j) (hm : s.writeMu = none) :
    (s.acquire g j).Written := by
  cases j with
  | data r id data offset =>
    have h0 : offset = 0 := h.start hg
    subst h0
    exact h.lockData hm
  | _ => exact h.lockOther hm fun _ => rfl

/-- A `WriteFrame` begins. -/
theorem beginWrite (h : s.Written) (hl : s.Locked) (hu : s.Unique) (hv : s.Valid) {g : Gid} {j : Job}
    (hg : s.pc g = .locked j) (hw : s.wants j = true) : (s.beginWrite g j).Written := by
  have hm : s.writeMu = some g := (hl g).mp (hg ▸ trivial)
  have hunsent : ∀ r, (s.beginWrite g j).unsent r = (Pc.writing j).rest s.closed r := fun r => by
    rw [unsent_of_holder (s := s.beginWrite g j) (g := g) hm]
    rw [show (s.beginWrite g j).pc g = .writing j from goto_self _ _]
    rfl
  have hbefore : ∀ r, s.unsent r = (Pc.locked j).rest s.closed r := fun r => by rw [unsent_of_holder hm, hg]
  -- what the frame carries for a stream is what goes out of `unsent`
  have hframe : ∀ r < s.fresh, dataOf (s.heap r).id [j.frame] ++ (Pc.writing j).rest s.closed r =
      (Pc.locked j).rest s.closed r := fun r hr => by
    cases j with
    | data r₀ id data offset =>
      have hstream : (s.pc g).stream = some (r₀, id) := by rw [hg]; rfl
      obtain ⟨hlt, hid⟩ := hv.works hstream
      by_cases hr₀ : r₀ = r
      · subst hr₀
        have hopen : ¬ (offset = 0 ∧ s.closed = true) := by
          rintro ⟨rfl, hc⟩
          simp [Session.wants, hc] at hw
        have hlocked : (Pc.locked (.data r₀ id data offset)).rest s.closed r₀ = data.drop offset :=
          if_pos ⟨rfl, hopen⟩
        have hwriting : (Pc.writing (.data r₀ id data offset)).rest s.closed r₀ =
            data.drop (offset + chunkSize data offset) := if_pos rfl
        rw [dataOf_data rfl hid.symm, hlocked, hwriting]
        exact chunk_append data offset
      · have hne : (Job.data r₀ id data offset).frame.streamID ≠ (s.heap r).id := fun he =>
          hr₀ (hu hlt hr (hid.trans he))
        have hlocked : (Pc.locked (.data r₀ id data offset)).rest s.closed r = [] := if_neg fun hc => hr₀ hc.1
        have hwriting : (Pc.writing (.data r₀ id data offset)).rest s.closed r = [] := if_neg hr₀
        rw [dataOf_of_id_ne hne, hlocked, hwriting]
        rfl
    | _ => rw [dataOf_of_type_ne _ (by simp [Job.frame, frameData, frameStreamOpen, frameStreamClose,
        framePong, framePing])]; rfl
  have hstart : ∀ {g' r id data offset}, (s.beginWrite g j).pc g' = .waitMu (.data r id data offset) →
      offset = 0 := fun {g' r id data offset} hg' => by
    by_cases hgg : g' = g
    · subst hgg
      rw [show (s.beginWrite g' j).pc g' = .writing j from goto_self _ _] at hg'
      cases hg'
    · exact h.start (g := g') (by rw [← hg']; exact (goto_of_ne (s := s) _ hgg).symm)
  by_cases hwf : s.writeFailed = true
  · have hsame : (s.beginWrite g j).sent = s.sent := by simp [Session.beginWrite, hwf]
    refine ⟨hstart, fun r hr => ?_, fun hf => ?_, fun hf => ?_⟩
    · rw [hsame]
      exact h.sent r hr
    · cases hwf.symm.trans hf
    · cases hwf.symm.trans hf
  · have hf : s.writeFailed = false := Bool.eq_false_iff.mpr hwf
    have hsent : (s.beginWrite g j).sent = s.sent ++ [j.frame] := by simp [Session.beginWrite, hf]
    have hsame : ∀ r < s.fresh, dataOf (s.heap r).id (s.beginWrite g j).sent ++ (s.beginWrite g j).unsent r =
        dataOf (s.heap r).id s.sent ++ s.unsent r := fun r hr => by
      rw [hsent, dataOf_append, List.append_assoc, hunsent, hframe r hr, hbefore]
    refine ⟨hstart, fun r hr => ?_, fun _ r hr => ?_, fun _ hc r hr => ?_⟩
    · have hgo := h.going hf r hr
      rw [← hsame r hr] at hgo
      exact (List.prefix_append _ _).trans hgo
    · exact (hsame r hr).symm ▸ h.going hf r hr
    · exact (hsame r hr).trans (h.whole hf hc r hr)

/-- `writeMu` is released: the goroutine has sent what it had to, or a write has failed. -/
theorem leave (h : s.Written) {g : Gid} {p : Pc} {failed : Bool}
    (hf : failed = false → s.writeFailed = false ∧ ∀ r, s.unsent r = [])
    (hp : ∀ {j}, p ≠ .waitMu j) : ({ s with writeFailed := failed }.release.goto g p).Written := by
  refine h.congr rfl rfl (fun hno => (hf hno).1) rfl (fun _ _ => ⟨rfl, rfl⟩) (fun r _ hno => ?_)
    fun {g' r id data offset} hg' => ?_
  · rw [(hf hno).2 r]
    exact unsent_of_free rfl r
  · by_cases hgg : g' = g
    · subst hgg
      rw [goto_self] at hg'
      exact absurd hg' hp
    · rw [goto_of_ne p hgg] at hg'
      exact h.start (g := g') hg'

theorem endWrite (h : s.Written) (hl : s.Locked) {g : Gid} {j : Job} (hg : s.pc g = .writing j) (ok : Bool) :
    (s.endWrite g j ok).Written := by
  have hm : s.writeMu = some g := (hl g).mp (hg ▸ trivial)
  have hunsent : ∀ r, s.unsent r = (Pc.writing j).rest s.closed r := fun r => by rw [unsent_of_holder hm, hg]
  have hno : (s.writeFailed || !ok) = false → s.writeFailed = false := fun h => (Bool.or_eq_false_iff.mp h).1
  cases j with
  | openFrame r id targetPort =>
    have hf : (s.writeFailed || !ok) = false → s.writeFailed = false ∧ ∀ r, s.unsent r = [] :=
      fun h => ⟨hno h, hunsent⟩
    cases ok with
    | true => exact ((h.leave (g := g) (p := .idle) hf fun h => nomatch h).modify (r := r)
        (f := ({ · with handed := true })) rfl rfl).set
    | false => exact h.leave hf fun h => nomatch h
  | closeFrame id why =>
    have hf : (s.writeFailed || !ok) = false → s.writeFailed = false ∧ ∀ r, s.unsent r = [] :=
      fun h => ⟨hno h, hunsent⟩
    cases why with
    | pushTimeout => exact h.leave hf fun h => nomatch h
    | acceptOverflow => exact h.leave hf fun h => nomatch h
    | openFailed => exact (h.leave (g := g) (p := .idle) hf fun h => nomatch h).set
    | streamClose r => exact ((h.leave (g := g) (p := .idle) hf fun h => nomatch h).modify (r := r)
        (f := ({ · with closeOnce := .done })) rfl rfl).set
  | data r₀ id data offset =>
    cases ok with
    | true =>
      -- the chunk is out, and the rest of the data is next
      have hrest : ∀ r, (Pc.locked (.data r₀ id data (offset + chunkSize data offset))).rest s.closed r <+:
          (Pc.writing (.data r₀ id data offset)).rest s.closed r := fun r => by
        unfold Pc.rest
        dsimp only
        split_ifs with h₁ h₂ h₂
        · exact List.prefix_rfl
        · exact absurd h₁.1 h₂
        · exact List.nil_prefix
        · exact List.prefix_rfl
      have hsame : s.closed = false → ∀ r,
          (Pc.locked (.data r₀ id data (offset + chunkSize data offset))).rest s.closed r =
            (Pc.writing (.data r₀ id data offset)).rest s.closed r := fun hc r => by
        simp only [Pc.rest, hc, Bool.false_eq_true, and_false, not_false_eq_true, and_true]
      have hafter : ∀ r, (s.endWrite g (.data r₀ id data offset) true).unsent r =
          (Pc.locked (.data r₀ id data (offset + chunkSize data offset))).rest s.closed r := fun r => by
        rw [unsent_of_holder (s := s.endWrite g (.data r₀ id data offset) true) (g := g) hm]
        rw [show (s.endWrite g (.data r₀ id data offset) true).pc g =
          .locked (.data r₀ id data (offset + chunkSize data offset)) from goto_self _ _]
        rfl
      refine ⟨fun {g' r id' data' offset'} hg' => ?_, h.sent, fun hf r hr => ?_, fun hf hc r hr => ?_⟩
      · by_cases hgg : g' = g
        · subst hgg
          rw [show (s.endWrite g' (.data r₀ id data offset) true).pc g' =
            .locked (.data r₀ id data (offset + chunkSize data offset)) from goto_self _ _] at hg'
          cases hg'
        · exact h.start (g := g') (by rw [← hg']; exact (goto_of_ne (s := s) _ hgg).symm)
      · rw [hafter r]
        have hgo := h.going (hno hf) r hr
        rw [hunsent r] at hgo
        exact ((List.prefix_append_right_inj _).mpr (hrest r)).trans hgo
      · rw [hafter r]
        have hgo := h.whole (hno hf) hc r hr
        rw [hunsent r] at hgo
        rw [hsame hc r]
        exact hgo
    | false => exact (h.leave (g := g) (p := .idle) (fun h => absurd h (by simp)) fun h => nomatch h).set
  | pong => exact h.leave (fun h => ⟨hno h, hunsent⟩) fun h => nomatch h
  | ping => exact h.leave (fun h => ⟨hno h, hunsent⟩) fun h => nomatch h

theorem giveUp (h : s.Written) (hl : s.Locked) {g : Gid} {j : Job} (hg : s.pc g = .locked j)
    (hw : s.wants j = false) : (s.giveUp g j).Written := by
  have hm : s.writeMu = some g := (hl g).mp (hg ▸ trivial)
  have hnil : ∀ r, s.unsent r = [] := fun r => by
    rw [unsent_of_holder hm, hg]
    cases j with
    | data r₀ id data offset =>
      show (if r₀ = r ∧ ¬ (offset = 0 ∧ s.closed = true) then data.drop offset else []) = []
      split_ifs with h₁
      · -- the chunks are all out, or the session was closed before the first
        simp only [wants, Bool.and_eq_false_iff, decide_eq_false_iff_not, Bool.or_eq_false_iff,
          Bool.not_eq_false'] at hw
        rcases hw with hlen | ⟨hoff, hc⟩
        · exact List.drop_eq_nil_of_le (Nat.not_lt.mp hlen)
        · exact absurd ⟨Nat.eq_zero_of_not_pos hoff, hc⟩ h₁.2
      · rfl
    | _ => rfl
  have hleave : ∀ {p : Pc}, (∀ {j}, p ≠ .waitMu j) → (s.release.goto g p).Written := fun hp =>
    h.leave (g := g) (fun hf => ⟨hf, hnil⟩) hp
  cases j with
  | data r₀ id data offset => exact (hleave (p := .idle) fun h => nomatch h).set
  | _ => exact hleave fun h => nomatch h

theorem dispatch (h : s.Written) (hl : s.Locked) (ha : s.Announced) (hv : s.Valid)
    (hr : s.pc .readLoop = .read) {f : Frame} (hu : (s.dispatch f).Unique) : (s.dispatch f).Written := by
  have hv' : (s.heard f).Valid := ⟨hv.entry, hv.works, hv.queued, hv.handed, hv.queue⟩
  have hf : (s.heard f).Written := h.set
  have hl' : (s.heard f).Locked := hl
  have hout : ¬ (s.pc .readLoop).Holds := hr ▸ not_false
  rcases s.dispatch_cases f with ⟨-, hd⟩ | ⟨r, -, hl, hd⟩ | ⟨r, -, hl, hd⟩ | ⟨-, hd⟩ | ⟨-, -, -, hd⟩
  all_goals rw [hd]
  · have hu' : ((s.heard f).enter f.streamID f.payload).Unique := by
      rw [hd] at hu
      exact hu
    exact (hf.enter (ha.heard f) hv' hu').goto (s := (s.heard f).enter _ _) hl' hout fun h => nomatch h
  · exact hf.goto hl' hout fun h => nomatch h
  · rw [hv'.drop_eq hl]
    exact (hf.modify (r := r) (f := (·.endedBy .peerClose)) rfl rfl).set
  · exact hf.goto hl' hout fun h => nomatch h
  · exact hf

theorem quiet (h : s.Written) (hl : s.Locked) (hq : s.Quiet s') : s'.Written := by
  refine h.congr hq.fresh hq.sent (fun hf => hq.writeFailed ▸ hf) hq.closed (fun r _ => ?_) (fun r _ _ => ?_)
    fun {g r id data offset} hg => ?_
  · have hid : (s'.heap r).id = (s.heap r).id := congrArg Prod.fst (hq.outbox r)
    have hput : (s'.heap r).put = (s.heap r).put := congrArg (·.2.1) (hq.outbox r)
    exact ⟨hid, hput⟩
  · rw [unsent, unsent, hq.writeMu, hq.closed]
    split
    · rename_i g hm
      rcases hq.pc g with hg | ⟨-, hg⟩
      · rw [hg]
      · exact absurd ((hl g).mpr hm) hg
    · rfl
  · rcases hq.pc g with he | ⟨hfree, -⟩
    · exact h.start (he.symm.trans hg)
    · rw [hg] at hfree
      exact nomatch hfree

/-- `Session.Close` marks the session closed. -/
theorem closeStreams (h : s.Written) (hv : s.Valid) {t : Teardown} :
    { s.closeStreams with closeOnce := t }.Written := by
  rw [hv.closeStreams_eq]
  have hbox : ∀ r, (if s.streams.lookup (s.heap r).id = some r then (s.heap r).endedBy .sessionClose
      else s.heap r).id = (s.heap r).id ∧ (if s.streams.lookup (s.heap r).id = some r then
      (s.heap r).endedBy .sessionClose else s.heap r).put = (s.heap r).put := fun r => by
    split <;> exact ⟨rfl, rfl⟩
  have hrest : ∀ (p : Pc) r, p.rest true r <+: p.rest s.closed r := fun p r => by
    cases p with
    | locked j =>
      cases j with
      | data r' id data offset =>
        simp only [Pc.rest]
        split_ifs with h₁ h₂ h₂
        · exact List.prefix_rfl
        · exact absurd ⟨h₁.1, fun hc => h₁.2 ⟨hc.1, trivial⟩⟩ h₂
        · exact List.nil_prefix
        · exact List.prefix_rfl
      | _ => exact List.prefix_rfl
    | writing j => cases j <;> exact List.prefix_rfl
    | _ => exact List.prefix_rfl
  refine ⟨h.start, fun r hr => ?_, fun hf r hr => ?_, fun _ hc => nomatch hc⟩
  · dsimp only
    rw [(hbox r).1, (hbox r).2]
    exact h.sent r hr
  · have hgo := h.going hf r hr
    unfold unsent at hgo ⊢
    dsimp only at hgo ⊢
    rw [(hbox r).1, (hbox r).2]
    cases hm : s.writeMu with
    | some g =>
      rw [hm] at hgo
      exact ((List.prefix_append_right_inj _).mpr (hrest (s.pc g) r)).trans hgo
    | none =>
      rw [hm] at hgo
      exact hgo

theorem step {a : Act} (h : s.Written) (hv : s.Valid) (hl : s.Locked) (ha : s.Announced) (hu : s.Unique)
    (hu' : s'.Unique) (hs : s.step a = some s') : s'.Written := by
  have out : ∀ {g p}, s.pc g = p → ¬ p.Holds → ¬ (s.pc g).Holds := fun h hp => h ▸ hp
  cases (trans_of_step hs).2.sends hv with
  | quiet hq => exact h.quiet hl hq
  | @openStream g targetPort hg =>
    have he : (s.enter (s.nextStreamID + 2) targetPort).Written := h.enter ha hv hu'
    have hgo := he.goto (s := s.enter (s.nextStreamID + 2) targetPort) hl (g := g)
      (p := .waitMu (.openFrame s.fresh (s.nextStreamID + 2) targetPort)) (out hg not_false) fun h => nomatch h
    exact hgo.set
  | @acceptStream g r c hg =>
    have hm : (s.modify r ({ · with handed := true })).Written := h.modify rfl rfl
    have hgo := hm.goto (s := s.modify r ({ · with handed := true })) hl (g := g) (p := .idle)
      (out hg not_false) fun h => nomatch h
    exact hgo.set
  | write hg =>
    refine h.goto hl (out hg not_false) fun he => ?_
    simp only [Pc.waitMu.injEq, Job.data.injEq] at he
    exact he.2.2.2.symm
  | lock hg hm => exact h.acquire hg hm
  | beginFrame hg hw => exact h.beginWrite hl hu hv hg hw
  | endFrame hg => exact h.endWrite hl hg _
  | unlock hg hw => exact h.giveUp hl hg hw
  | recv hg => exact h.dispatch hl ha hv hg hu'
  | enqueue hg =>
    exact (h.goto hl (g := .readLoop) (p := .read) (out hg not_false) fun h => nomatch h).set
  | closeStreams => exact h.closeStreams hv

end Written

end Session

end Hawal.Mux
