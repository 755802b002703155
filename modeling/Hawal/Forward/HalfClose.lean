import Hawal.Forward.Pipe

/-!
# What gets through a forwarded connection

`Uploads` and `Downloads` are what holds of one machine's two loops from the moment it
has its stream. Each loop alone is faithful: what was read from the connection is
written to the stream, and what was read from the stream is written to the connection.
But the end of the input closes the stream for both directions, so that what the other
end sends after that is lost. `forwarded` says what is received in every run, and
`halfClosedRun` is one in which the user gets nothing of what the target sends.
-/

namespace Hawal.Forward

open Hawal.Lib Hawal.Transport Hawal.Mux Hawal.Mux.Session

/-- `Close` of the stream was called. -/
def Loop.closes : Loop → Bool
  | .closing => true
  | .done => true
  | _ => false

/-- The bytes in the loop's buffer. -/
def Loop.chunk : Loop → List UInt8
  | .holding b => b
  | _ => []

/-- What was read from the connection, and is not with the stream yet. -/
def Pipe.pending (c : Pipe) (s : Session) : List UInt8 :=
  match c.up, s.pc upGid with
  | .holding b, _ => b
  | .writing b, .waitMu _ => b
  | _, _ => []

/-- **The loop from the connection to the stream**; `said` is all that the connection is
sent. -/
structure Uploads (s : Session) (c : Pipe) (said : List UInt8) (r : Ref) : Prop where
  read : said = (s.heap r).put ++ c.pending s ++ c.input
  job : ∀ {g id data offset}, (s.pc g).job = some (.data r id data offset) →
    g = upGid ∧ c.up = .writing data ∧ offset ≤ data.length
  wrote : ∀ {b}, c.up = .writing b → s.pc upGid = .idle ∧ s.ret upGid = some (.wrote b.length false) ∨
    ∃ id offset, (s.pc upGid).job = some (.data r id b offset)
  closed : (s.heap r).closed = c.up.closes
  endInput : c.up.over = true → c.input = [] ∨ (s.heap r).cause = some .peerClose
  frame : ∀ {n f}, s.sent[n]? = some f → f.type = frameStreamClose → f.streamID = (s.heap r).id →
    dataOf (s.heap r).id (s.sent.take n) = (s.heap r).put

/-- **The loop from the stream to the connection.** -/
structure Downloads (s : Session) (c : Pipe) (r : Ref) : Prop where
  got : (s.heap r).got = c.output ++ c.down.chunk
  ended : c.down.over = true → (s.heap r).cause ≠ none ∧ (s.heap r).received = (s.heap r).got
  conn : c.connClosed = true → c.down = .done

/-- The stream `r` has been handed out. -/
def Holds (s : Session) (r : Ref) : Prop := r < s.fresh ∧ (s.heap r).handed = true

variable {s s' : Session} {c : Pipe} {said : List UInt8} {r : Ref} {a : Act}

theorem other_of_calls {o : Option Ref} (hl : Leaves o a = true) (hs : a.Smooth = true) (hc : a.calls = true) :
    Other a.gid = true := by
  cases a <;> simp_all [Leaves, Act.Smooth, Act.calls, Act.gid]

theorem Holds.step (h : Holds s r) (hv : s.Valid) (ht : s.Trans a s') : Holds s' r :=
  ⟨h.1.trans_le (ht.fresh_le hv), (ht.stream hv h.1).handed h.2⟩

/-- What others do to the stream: `readLoop` ends it or pushes to it, and the loop that is
at a write goes on. -/
theorem leaves_stream {st : Stream} (h : s.StreamMoves r a st) (hl : Leaves (some r) a = true) :
    st.got = (s.heap r).got ∧ st.closed = (s.heap r).closed ∧ (st.put = (s.heap r).put ∨
      ∃ id data offset, s.pc a.gid = .waitMu (.data r id data offset) ∧ st.put = (s.heap r).put ++ data) := by
  cases h with
  | reads => simp [Leaves] at hl
  | shuts => simp [Leaves] at hl
  | writes hg he =>
    rw [he]
    exact ⟨rfl, rfl, .inr ⟨_, _, _, hg, rfl⟩⟩
  | _ =>
    rename_i he
    rw [he]
    exact ⟨rfl, rfl, .inl rfl⟩

namespace Uploads

/-- The loop is at a `Write`, and its goroutine moves. -/
theorem writing_step (h : Uploads s c said r) (hu : s.Steady) (ha : a.Smooth = true)
    (hl : Leaves (some r) a = true) (ht : s.Trans a s') {b : List UInt8} (hb : c.up = .writing b)
    (hg : a.gid = upGid) :
    (s'.heap r).put ++ c.pending s' = (s.heap r).put ++ c.pending s ∧
      (s'.pc upGid = .idle ∧ s'.ret upGid = some (.wrote b.length false) ∨
        ∃ id offset, (s'.pc upGid).job = some (.data r id b offset)) := by
  obtain ⟨hidle, hwait, hlocked, hwriting⟩ := ht.next
  rw [hg] at hidle hwait hlocked hwriting
  rcases h.wrote hb with ⟨hpc, -⟩ | ⟨id, offset, hj⟩
  · -- in the application it makes no step of its own
    have := other_of_calls hl ha (hidle hpc)
    rw [hg] at this
    cases this
  · have hle := (h.job hj).2.2
    cases hp : s.pc upGid with
    | waitMu j =>
      obtain rfl : j = .data r id b offset := by simpa [hp, Pc.job] using hj
      rw [hwait _ hp]
      refine ⟨?_, .inr ⟨id, offset, ?_⟩⟩
      · simp [Pipe.pending, hb, hp, Session.acquire, Session.modify]
      · simp [Session.acquire, Session.modify, Pc.job]
    | locked j =>
      obtain rfl : j = .data r id b offset := by simpa [hp, Pc.job] using hj
      rcases hlocked _ hp with ⟨-, rfl⟩ | ⟨hw, rfl⟩
      · refine ⟨?_, .inr ⟨id, offset, ?_⟩⟩
        · simp [Pipe.pending, hb, hp, Session.beginWrite]
        · simp [Session.beginWrite, Pc.job]
      · -- with the session open it gives up only where nothing is left
        have hend : offset = b.length := by
          simp only [Session.wants, hu.closed, Bool.not_false, Bool.or_true, Bool.and_true,
            decide_eq_false_iff_not] at hw
          omega
        refine ⟨?_, .inl ⟨?_, ?_⟩⟩
        · simp [Pipe.pending, hb, hp, Session.giveUp, Session.answer, Session.release]
        · simp [Session.giveUp, Session.answer]
        · simp [Session.giveUp, Session.answer, Session.release, hu.closed, hend]
    | writing j =>
      obtain rfl : j = .data r id b offset := by simpa [hp, Pc.job] using hj
      obtain ⟨ok, rfl, he⟩ := hwriting _ hp
      obtain rfl : ok = true := by rw [he] at ha; exact ha
      refine ⟨?_, .inr ⟨id, offset + chunkSize b offset, ?_⟩⟩
      · simp [Pipe.pending, hb, hp, Session.endWrite]
      · simp [Session.endWrite, Pc.job]
    | _ => simp [hp, Pc.job] at hj

/-- The loop is not at a `Write`, or it is not its goroutine that moves. -/
theorem resting_step (h : Uploads s c said r) (hv : s.Valid) (hr : r < s.fresh) (hl : Leaves (some r) a = true)
    (ht : s.Trans a s') (hrest : a.gid = upGid → ∀ b, c.up ≠ .writing b) :
    (s'.heap r).put = (s.heap r).put ∧ c.pending s' = c.pending s := by
  constructor
  · rcases (leaves_stream (ht.stream hv hr) hl).2.2 with hp | ⟨id, data, offset, hpc, -⟩
    · exact hp
    · obtain ⟨hg, hb, -⟩ := h.job (congrArg Pc.job hpc)
      exact absurd hb (hrest hg _)
  · by_cases hg : upGid = a.gid
    · unfold Pipe.pending
      split <;> split <;> simp_all
    · rw [Pipe.pending, Pipe.pending, (ht.others hv hg).1]

theorem job_step (h : Uploads s c said r) (hv : s.Valid) (hl : Leaves (some r) a = true) (ht : s.Trans a s')
    {g : Gid} {id : UInt32} {data : List UInt8} {offset : ℕ} (hj : (s'.pc g).job = some (.data r id data offset)) :
    g = upGid ∧ c.up = .writing data ∧ offset ≤ data.length := by
  cases ht.job hv hj with
  | keeps hj => exact h.job hj
  | goesOn hg he =>
    rw [Job.data.injEq] at he
    obtain ⟨rfl, rfl, rfl, rfl⟩ := he
    obtain ⟨hup, hb, hle⟩ := h.job (congrArg Pc.job hg)
    refine ⟨hup, hb, ?_⟩
    have := Nat.min_le_left (data.length - ‹ℕ›) maxPayloadSize
    unfold chunkSize
    omega
  | writes _ he =>
    rw [Job.data.injEq] at he
    simp [Leaves, he.1] at hl
  | opens he => cases he
  | drops _ he => cases he
  | answers he => cases he
  | pings he => cases he

/-- No close frame was sent for a stream that is open. -/
theorem closes_of_dropped (h : Uploads s c said r) (hs : s.Sound) (hu : s.Undisturbed) (hr : Holds s r)
    (hd : s.Dropped (s.heap r).id) : c.up.closes = true :=
  h.closed ▸ (hu.closed_of_dropped hs.unique hr.1 hr.2 hd).1

/-- When a close frame is written all the data was sent. -/
theorem all_sent (h : Uploads s c said r) (hs : s.Sound) (hu : s.Undisturbed) (hr : Holds s r)
    (hd : s.Dropped (s.heap r).id) : dataOf (s.heap r).id s.sent = (s.heap r).put := by
  have hwhole := hs.written.whole hu.steady.writeFailed hu.steady.closed r hr.1
  have hnone : s.unsent r = [] := by
    by_contra hne
    obtain ⟨g, id, data, offset, hj⟩ := exists_job_of_unsent hne
    have hb := (h.job hj).2.1
    have hcl := h.closes_of_dropped hs hu hr hd
    rw [hb] at hcl
    cases hcl
  rwa [hnone, List.append_nil] at hwhole

/-- The frames before a close frame carry all the data. -/
theorem frame_step (h : Uploads s c said r) (hs : s.Sound) (hu : s.Undisturbed) (hr : Holds s r) (ht : s.Trans a s')
    (hput : c.up.closes = true → (s'.heap r).put = (s.heap r).put) {n : ℕ} {f : Frame}
    (hn : s'.sent[n]? = some f) (hf : f.type = frameStreamClose) (hid : f.streamID = (s'.heap r).id) :
    dataOf (s'.heap r).id (s'.sent.take n) = (s'.heap r).put := by
  rw [(ht.stream hs.valid hr.1).id] at hid ⊢
  have old : s.sent[n]? = some f → dataOf (s.heap r).id (s.sent.take n) = (s'.heap r).put := by
    intro hn
    have hcl := h.closes_of_dropped hs hu hr (hid ▸ hu.ended.sent (List.mem_of_getElem? hn) hf)
    exact (h.frame hn hf hid).trans (hput hcl).symm
  by_cases he : ∃ g, a = .beginFrame g
  · obtain ⟨g, rfl⟩ := he
    cases ht with
    | @beginFrame _ j hg =>
      have hsent : (s.beginWrite g j).sent = s.sent ++ [j.frame] := by
        simp [Session.beginWrite, hu.steady.writeFailed]
      rw [hsent] at hn ⊢
      by_cases hlt : n < s.sent.length
      · rw [List.getElem?_append_left hlt] at hn
        rw [List.take_append_of_le_length hlt.le]
        exact old hn
      · -- the close frame is the one that is written now
        obtain ⟨hlen, hget⟩ := List.getElem?_eq_some_iff.mp hn
        obtain rfl : n = s.sent.length := by
          rw [List.length_append, List.length_singleton] at hlen
          omega
        obtain rfl : j.frame = f := by simpa using hget
        obtain ⟨id, why, rfl⟩ := exists_of_frame_close hf
        have hd : s.Dropped (s.heap r).id := hid ▸ hu.ended.job (congrArg Pc.job hg)
        rw [List.take_left, h.all_sent hs hu hr hd]
        exact (hput (h.closes_of_dropped hs hu hr hd)).symm
  · rw [ht.sent hs.valid fun g hg => he ⟨g, hg⟩] at hn ⊢
    exact old hn

/-- **A step of the session** that is not one of the loop's calls. -/
theorem step (h : Uploads s c said r) (hs : s.Sound) (hu : s.Undisturbed) (hr : Holds s r) (ha : a.Smooth = true)
    (hl : Leaves (some r) a = true) (ht : s.Trans a s') : Uploads s' c said r := by
  have hv := hs.valid
  have hst := ht.stream hv hr.1
  have hmoves : (s'.heap r).put ++ c.pending s' = (s.heap r).put ++ c.pending s ∧
      ∀ {b}, c.up = .writing b → s'.pc upGid = .idle ∧ s'.ret upGid = some (.wrote b.length false) ∨
        ∃ id offset, (s'.pc upGid).job = some (.data r id b offset) := by
    by_cases hg : a.gid = upGid ∧ ∃ b, c.up = .writing b
    · obtain ⟨hg, b, hb⟩ := hg
      obtain ⟨hput, hwrote⟩ := h.writing_step hu.steady ha hl ht hb hg
      refine ⟨hput, fun {b'} hb' => ?_⟩
      obtain rfl : b = b' := by simpa [hb] using hb'
      exact hwrote
    · have hrest : a.gid = upGid → ∀ b, c.up ≠ .writing b := fun h₁ b h₂ => hg ⟨h₁, b, h₂⟩
      obtain ⟨hput, hpend⟩ := h.resting_step hv hr.1 hl ht hrest
      refine ⟨by rw [hput, hpend], fun {b} hb => ?_⟩
      have hne : upGid ≠ a.gid := fun he => hrest he.symm b hb
      obtain ⟨hpc, hret⟩ := ht.others hv hne
      rw [hpc, hret]
      exact h.wrote hb
  have hput : c.up.closes = true → (s'.heap r).put = (s.heap r).put := by
    intro hcl
    rcases (leaves_stream hst hl).2.2 with hp | ⟨id, data, offset, hpc, -⟩
    · exact hp
    · rw [(h.job (congrArg Pc.job hpc)).2.1] at hcl
      cases hcl
  constructor
  · rw [hmoves.1]
    exact h.read
  · exact h.job_step hv hl ht
  · exact hmoves.2
  · exact (leaves_stream hst hl).2.1.trans h.closed
  · intro ho
    refine (h.endInput ho).imp_right fun hc => ?_
    exact (hst.ended_stays hv hs.dispatched hr.1 (by simp [hc])).1.trans hc
  · exact h.frame_step hs hu hr ht hput

/-- A loop that has closed its stream, when the peer had not, has passed on all its input. -/
theorem said_of_closes (h : Uploads s c said r) (hcl : (s.heap r).closed = true)
    (hc : (s.heap r).cause = some (.closeStream (.streamClose r))) : c.input = [] ∧ said = (s.heap r).put := by
  have hcloses : c.up.closes = true := h.closed.symm.trans hcl
  have hinput : c.input = [] := by
    rcases h.endInput (by cases hup : c.up <;> simp_all [Loop.closes, Loop.over]) with hi | hp
    · exact hi
    · cases hc.symm.trans hp
  have hpend : c.pending s = [] := by
    unfold Pipe.pending
    split <;> simp_all [Loop.closes]
  refine ⟨hinput, ?_⟩
  rw [h.read, hpend, hinput, List.append_nil, List.append_nil]

/-- The calls of the other two goroutines do not touch the sending half. -/
theorem congr (h : Uploads s c said r) (hid : (s'.heap r).id = (s.heap r).id) (hput : (s'.heap r).put = (s.heap r).put)
    (hclosed : (s'.heap r).closed = (s.heap r).closed) (hcause : (s'.heap r).cause = (s.heap r).cause)
    (hsent : s'.sent = s.sent) (hpc : s'.pc upGid = s.pc upGid) (hret : s'.ret upGid = s.ret upGid)
    (hjob : ∀ {g j}, (s'.pc g).job = some j → (s.pc g).job = some j) : Uploads s' c said r where
  read := by
    rw [hput, Pipe.pending, hpc]
    exact h.read
  job hj := h.job (hjob hj)
  wrote hb := by
    rw [hpc, hret]
    exact h.wrote hb
  closed := hclosed.trans h.closed
  endInput ho := by
    rw [hcause]
    exact h.endInput ho
  frame hn hf hi := by
    rw [hsent] at hn ⊢
    rw [hid] at hi ⊢
    rw [hput]
    exact h.frame hn hf hi

/-- A step that is not about this loop. -/
theorem ofUp {c' : Pipe} (h : Uploads s c said r) (hup : c'.up = c.up) (hinput : c'.input = c.input) :
    Uploads s c' said r where
  read := by
    rw [Pipe.pending, hup, hinput]
    exact h.read
  job := hup ▸ h.job
  wrote := hup ▸ h.wrote
  closed := hup ▸ h.closed
  endInput := by
    rw [hup, hinput]
    exact h.endInput
  frame := h.frame

/-- A step that the loop makes while it is not at a `Write`. -/
theorem go {up : Loop} {input : List UInt8} (h : Uploads s c said r) (hup : ∀ b, c.up ≠ .writing b)
    (hup' : ∀ b, up ≠ .writing b) (hcl : up.closes = c.up.closes) (hbytes : up.chunk ++ input = c.up.chunk ++ c.input)
    (hover : up.over = true → input = [] ∨ (s.heap r).cause = some .peerClose) :
    Uploads s { c with up := up, input := input } said r where
  read := by
    have hold : c.pending s = c.up.chunk := by
      unfold Pipe.pending Loop.chunk
      split <;> split <;> simp_all
    have hnew : Pipe.pending { c with up := up, input := input } s = up.chunk := by
      unfold Pipe.pending Loop.chunk
      split <;> split <;> simp_all
    rw [hnew, List.append_assoc, hbytes, ← hold, ← List.append_assoc]
    exact h.read
  job hj := absurd (h.job hj).2.1 (hup _)
  wrote hb := absurd hb (hup' _)
  closed := h.closed.trans hcl.symm
  endInput := hover
  frame := h.frame

/-- `Write` is called; the stream is open. -/
theorem write (h : Uploads s c said r) {b : List UInt8} (hb : c.up = .holding b)
    (ht : s.Trans (.write upGid r b) s') : Uploads s' { c with up := .writing b } said r := by
  have hnone : ∀ {g id data offset}, (s.pc g).job ≠ some (.data r id data offset) := fun hj => by
    have := (h.job hj).2.1
    rw [hb] at this
    cases this
  cases ht with
  | writeRefused _ _ hcl =>
    rw [h.closed, hb] at hcl
    cases hcl
  | write =>
    refine ⟨?_, fun {g id data offset} hj => ?_, fun {b'} hb' => .inr ⟨(s.heap r).id, 0, ?_⟩, ?_, ?_, h.frame⟩
    · have := h.read
      simp only [Pipe.pending, hb] at this
      simpa [Pipe.pending] using this
    · by_cases hg : g = upGid
      · subst hg
        simp only [goto_self, Pc.job, Option.some.injEq, Job.data.injEq] at hj
        obtain ⟨-, -, rfl, rfl⟩ := hj
        exact ⟨rfl, rfl, Nat.zero_le _⟩
      · rw [goto_of_ne _ hg] at hj
        exact absurd hj hnone
    · obtain rfl : b = b' := by simpa using hb'
      simp [Pc.job]
    · exact h.closed.trans (by rw [hb]; rfl)
    · exact fun ho => by cases ho

/-- `Write` has returned, and it has written everything. -/
theorem wrote_go (h : Uploads s c said r) {b : List UInt8} {n : ℕ} {err : Bool} (hb : c.up = .writing b)
    (hpc : s.pc upGid = .idle) (hret : s.ret upGid = some (.wrote n err)) :
    Uploads s { c with up := Forwarding.afterWrite b n err } said r := by
  obtain ⟨rfl, rfl⟩ : n = b.length ∧ err = false := by
    rcases h.wrote hb with ⟨-, hr⟩ | ⟨id, offset, hj⟩
    · simpa [hret] using hr
    · rw [hpc] at hj
      cases hj
  have hup : Forwarding.afterWrite b b.length false = .reading := by simp [Forwarding.afterWrite]
  rw [hup]
  refine ⟨?_, fun {g id data offset} hj => ?_, fun hb' => ?_, ?_, ?_, h.frame⟩
  · have := h.read
    simp only [Pipe.pending, hb, hpc] at this
    simpa [Pipe.pending] using this
  · obtain ⟨rfl, -, -⟩ := h.job hj
    rw [hpc] at hj
    cases hj
  · cases hb'
  · exact h.closed.trans (by rw [hb]; rfl)
  · exact fun ho => by cases ho

/-- `Close` is called for the first time. -/
theorem close (h : Uploads s c said r) (hu : s.Handing) (hr : r < s.fresh) (hup : c.up = .ended)
    (ht : s.Trans (.closeStream upGid r) s') : Uploads s' { c with up := .closing } said r := by
  have hopen : (s.heap r).closed = false := h.closed.trans (by rw [hup]; rfl)
  have hfresh := (hu.once r hr).mpr hopen
  have hnone : ∀ {g id data offset}, (s.pc g).job ≠ some (.data r id data offset) := fun hj => by
    have := (h.job hj).2.1
    rw [hup] at this
    cases this
  cases ht with
  | closeStreamAgain _ _ hdone => cases hfresh.symm.trans hdone
  | closeStream =>
    have hheap : ∀ {p}, (((s.modify r ({ · with closeOnce := .running, closed := true })).goto upGid p).heap r) =
        { s.heap r with closeOnce := .running, closed := true } :=
      fun {_} => modify_self (s := s) r ({ · with closeOnce := .running, closed := true })
    refine ⟨?_, fun {g id data offset} hj => ?_, fun hb => ?_, ?_, fun _ => ?_, fun {n f} hn hf hid => ?_⟩
    · have := h.read
      simp only [Pipe.pending, hup] at this
      rw [hheap]
      simpa [Pipe.pending] using this
    · by_cases hg : g = upGid
      · subst hg
        simp [Pc.job] at hj
      · rw [goto_of_ne _ hg] at hj
        exact absurd hj hnone
    · cases hb
    · rw [hheap]
      rfl
    · rw [hheap]
      exact h.endInput (by rw [hup]; rfl)
    · rw [hheap] at hid ⊢
      exact h.frame hn hf hid

/-- A call of another goroutine returns at once. -/
theorem answer_other {g g' : Gid} {v : Ret} (hg : g' ≠ g) :
    (s.answer g v).pc g' = s.pc g' ∧ (s.answer g v).ret g' = s.ret g' :=
  ⟨goto_of_ne .idle hg, Function.update_of_ne hg _ _⟩

theorem answer_job {g g' : Gid} {v : Ret} {j : Job} (hj : ((s.answer g v).pc g').job = some j) :
    (s.pc g').job = some j := by
  by_cases hg : g' = g
  · subst hg
    simp [Session.answer, Pc.job] at hj
  · rwa [(answer_other hg).1] at hj

/-- The other loop's `Read` of the stream. -/
theorem readStream (h : Uploads s c said r) {n : ℕ} (ht : s.Trans (.read downGid r n) s') : Uploads s' c said r := by
  cases ht with
  | @read _ _ _ ret st _ _ hread =>
    obtain ⟨ch, buf, got, hst, -⟩ := Stream.read_eq_some hread
    have hheap : ((s.modify r fun _ => st).answer downGid ret).heap r = st := modify_self (s := s) r fun _ => st
    obtain ⟨hpc, hret⟩ := answer_other (s := s.modify r fun _ => st) (v := ret) (show upGid ≠ downGid by decide)
    refine h.congr ?_ ?_ ?_ ?_ rfl hpc hret fun hj => answer_job (s := s.modify r fun _ => st) hj
    all_goals rw [hheap, hst]

/-- The deferred `Close`: the stream is closed already. -/
theorem closeAgain (h : Uploads s c said r) (hu : s.Handing) (hr : r < s.fresh) (hcl : c.up.closes = true)
    (ht : s.Trans (.closeStream mainGid r) s') : s'.heap = s.heap ∧ Uploads s' c said r := by
  have hclosed : (s.heap r).closed = true := h.closed.trans hcl
  cases ht with
  | closeStream _ _ hfresh => cases hclosed.symm.trans ((hu.once r hr).mp hfresh)
  | closeStreamAgain =>
    obtain ⟨hpc, hret⟩ := answer_other (s := s) (v := .closed) (show upGid ≠ mainGid by decide)
    exact ⟨rfl, h.congr rfl rfl rfl rfl rfl hpc hret answer_job⟩

end Uploads

namespace Downloads

theorem step (h : Downloads s c r) (hv : s.Valid) (hd : s.Dispatched) (hr : r < s.fresh)
    (hl : Leaves (some r) a = true) (ht : s.Trans a s') : Downloads s' c r where
  got := (leaves_stream (ht.stream hv hr) hl).1.trans h.got
  ended ho := by
    obtain ⟨hc, hrec⟩ := h.ended ho
    obtain ⟨hc', hrec'⟩ := (ht.stream hv hr).ended_stays hv hd hr hc
    rw [hc', hrec', (leaves_stream (ht.stream hv hr) hl).1]
    exact ⟨hc, hrec⟩
  conn := h.conn

theorem congr (h : Downloads s c r) (hgot : (s'.heap r).got = (s.heap r).got)
    (hcause : (s'.heap r).cause = (s.heap r).cause) (hrec : (s'.heap r).received = (s.heap r).received) :
    Downloads s' c r where
  got := hgot.trans h.got
  ended ho := by
    rw [hcause, hrec, hgot]
    exact h.ended ho
  conn := h.conn

/-- A step that is not about this loop. -/
theorem ofDown {c' : Pipe} (h : Downloads s c r) (hdown : c'.down = c.down) (hout : c'.output = c.output)
    (hconn : c'.connClosed = c.connClosed) : Downloads s c' r where
  got := by rw [hdown, hout, h.got]
  ended := hdown ▸ h.ended
  conn := by
    rw [hdown, hconn]
    exact h.conn

/-- `Read` of the stream returns. -/
theorem read (h : Downloads s c r) (hd : s.Dispatched) (hr : r < s.fresh) (hdown : c.down = .reading)
    (ht : s.Trans (.read downGid r bufferSize) s') :
    Downloads s' { c with down := Forwarding.afterRead (s'.ret downGid) } r := by
  cases ht with
  | @read _ _ _ ret st _ _ hread =>
    have hheap : ((s.modify r fun _ => st).answer downGid ret).heap r = st := modify_self (s := s) r fun _ => st
    have hret : ((s.modify r fun _ => st).answer downGid ret).ret downGid = some ret := by simp [Session.answer]
    have hgot : (s.heap r).got = c.output := by
      rw [h.got, hdown]
      exact List.append_nil _
    have hconn : c.connClosed = true → False := fun hc => by
      have := h.conn hc
      rw [hdown] at this
      cases this
    rw [hret]
    rcases Stream.read_ret hread with ⟨b, rfl, hb⟩ | ⟨rfl, rfl⟩
    · refine ⟨?_, fun ho => (by cases ho), fun hc => (hconn hc).elim⟩
      rw [hheap, hb, hgot]
      rfl
    · obtain ⟨hcl, hrec⟩ := Stream.read_eq_eof hread
      refine ⟨?_, fun _ => ?_, fun hc => (hconn hc).elim⟩
      · rw [hheap, hgot]
        exact (List.append_nil _).symm
      · rw [hheap]
        exact ⟨(hd.fed r hr).cause.mp hcl, hrec⟩

end Downloads

/-- **One machine's part**, from the moment it has its stream. -/
structure Piped (s : Session) (c : Pipe) (said : List UInt8) (r : Ref) : Prop where
  holds : Holds s r
  uploads : Uploads s c said r
  downloads : Downloads s c r

namespace Piped

/-- `OpenStream` or `AcceptStream` returns the stream: nobody has used it. -/
theorem new (hs : s.Sound) (hs' : s'.Sound) (hu : s.Undisturbed) (ht : s.Trans a s') {g : Gid}
    (hnone : s.given g = none) (hsome : s'.given g = some r) :
    Piped s' { stream := some r, input := said } said r := by
  obtain ⟨hheap, hbegin, hoffer⟩ : s'.heap r = { s.heap r with handed := true } ∧ (∀ g, a ≠ .beginFrame g) ∧
      (r ∈ s.acceptChan.buf ∨ ∃ id targetPort, (s.pc g).job = some (.openFrame r id targetPort)) := by
    rcases ht.given hs.valid hsome with hg | h
    · cases hnone.symm.trans hg
    · exact h
  obtain ⟨hlt, hh⟩ : r < s.fresh ∧ (s.heap r).handed = false := by
    rcases hoffer with hq | ⟨id, targetPort, hj⟩
    · exact ⟨hs.valid.queued hq, (hu.offered.queued hq).1⟩
    · exact ⟨hs.valid.job_stream hj rfl, hu.offered.opening hj⟩
  have hunused := hu.handing.unused r hlt hh
  have hput : (s'.heap r).put = [] := by
    rw [hheap]
    exact hunused.put
  have hjob : ∀ {g id data offset}, (s'.pc g).job ≠ some (.data r id data offset) := fun hj => by
    rcases (ht.job hs.valid hj).data with ⟨offset, hj⟩ | hh'
    · exact hunused.job hj
    · cases hh.symm.trans hh'
  have hlt' := hlt.trans_le (ht.fresh_le hs.valid)
  refine ⟨⟨hlt', by rw [hheap]⟩, ⟨?_, fun hj => absurd hj hjob, fun hb => (by cases hb), ?_, fun ho => (by cases ho),
    fun {n f} _ _ _ => ?_⟩, ⟨?_, fun ho => (by cases ho), fun hc => (by cases hc)⟩⟩
  · simp [hput, Pipe.pending]
  · rw [hheap]
    exact hunused.closed
  · -- nothing was written to the stream
    have hsent := hs'.written.sent r hlt'
    rw [hput, List.prefix_nil] at hsent
    rw [hput]
    exact List.prefix_nil.mp (hsent ▸ dataOf_mono _ ( List.take_prefix n _))
  · rw [hheap]
    exact hunused.got

/-- A step of the session that is not one of the loops' calls. -/
theorem step (h : Piped s c said r) (hs : s.Sound) (hu : s.Undisturbed) (ha : a.Smooth = true)
    (hl : Leaves (some r) a = true) (ht : s.Trans a s') : Piped s' c said r where
  holds := h.holds.step hs.valid ht
  uploads := h.uploads.step hs hu h.holds ha hl ht
  downloads := h.downloads.step hs.valid hs.dispatched h.holds.1 hl ht

end Piped

variable {cfg : Config} {f f' : Forwarding} {x : Side}

/-- **What holds in every state** of the two machines. -/
structure Flowing (cfg : Config) (said : Side → List UInt8) (f : Forwarding) : Prop where
  linked : f.mux.Linked cfg
  undisturbed : ∀ x, (f.mux x).sess.Undisturbed
  start : ∀ x, (f.pipe x).stream = none → f.pipe x = { input := said x } ∧ (f.mux x).sess.given mainGid = none
  piped : ∀ {x r}, (f.pipe x).stream = some r → Piped (f.mux x).sess (f.pipe x) (said x) r

theorem newForwarding_flowing (cfg : Config) (said : Side → List UInt8) : Flowing cfg said (newForwarding said) where
  linked := Pair.newPair_linked cfg
  undisturbed _ := newSession_undisturbed _
  start _ _ := ⟨rfl, rfl⟩
  piped h := by cases h

namespace Flowing

variable {said : Side → List UInt8}

/-- A step of one of the loops that is not a call. -/
theorem set (h : Flowing cfg said f) (hc : c.stream = some r) (hp : Piped (f.mux x).sess c (said x) r) :
    Flowing cfg said (f.set x c) where
  linked := h.linked
  undisturbed := h.undisturbed
  start y hy := by
    by_cases hyx : y = x
    · subst hyx
      simp [Forwarding.set, hc] at hy
    · simp only [Forwarding.set, Function.update_of_ne hyx] at hy ⊢
      exact h.start y hy
  piped {y r'} hy := by
    by_cases hyx : y = x
    · subst hyx
      simp only [Forwarding.set, Function.update_self] at hy ⊢
      obtain rfl : r = r' := Option.some.inj (hc.symm.trans hy)
      exact hp
    · simp only [Forwarding.set, Function.update_of_ne hyx] at hy ⊢
      exact h.piped hy

/-- A call of one of the loops. -/
theorem run (h : Flowing cfg said f) {s : Session} (hl : a.Local = true) (ha : a.Smooth = true)
    (hs : (f.mux x).sess.step a = some s) (hb : Pair.Bounded (f.mux.run x s)) (hc : c.stream = some r)
    (hp : Piped s c (said x) r) : Flowing cfg said ({ f with mux := f.mux.run x s }.set x c) := by
  have hstep : f.mux.step cfg (.act x a) = some (f.mux.run x s) := by simp [Pair.step, hl, hs]
  have hother : ∀ {y}, y ≠ x → f.mux.run x s y = f.mux y := fun hy => Pair.put_of_ne _ hy
  refine ⟨h.linked.step hb.roomy hstep, h.linked.undisturbed_step (e := .act x a) h.undisturbed ha hstep,
    fun y hy => ?_, fun {y r'} hy => ?_⟩
  · by_cases hyx : y = x
    · subst hyx
      simp [Forwarding.set, hc] at hy
    · simp only [Forwarding.set, Function.update_of_ne hyx, hother hyx] at hy ⊢
      exact h.start y hy
  · by_cases hyx : y = x
    · subst hyx
      simp only [Forwarding.set, Function.update_self, Pair.run_self] at hy ⊢
      obtain rfl : r = r' := Option.some.inj (hc.symm.trans hy)
      exact hp
    · simp only [Forwarding.set, Function.update_of_ne hyx, hother hyx] at hy ⊢
      exact h.piped hy

/-- A step of the sessions. -/
theorem goesOn (h : Flowing cfg said f) {e : Mux.Event} {m : Pair} (he : e.Smooth = true)
    (hl : ∀ x a, a.At x e → Leaves (f.pipe x).stream a = true ∨ (f.pipe x).stream = none)
    (hs : f.mux.step cfg e = some m) (hb : Pair.Bounded m) : Flowing cfg said (f.goesOn m) := by
  have hlinked := h.linked.step hb.roomy hs
  have hsess : ∀ x, (m x).sess = (f.mux x).sess ∨ ∃ a, (f.mux x).sess.step a = some (m x).sess ∧ a.At x e := by
    intro x
    obtain ⟨z, hother, hz⟩ := (Pair.trans_of_step hs).sess
    rcases Side.eq_or_eq_other z x with rfl | rfl
    · exact hz.imp_right fun ⟨a, hact, hat, _⟩ => ⟨a, hact, hat⟩
    · exact .inl hother
  refine ⟨hlinked, h.linked.undisturbed_step h.undisturbed he hs, fun x hx => ?_, fun {x r} hx => ?_⟩
  · by_cases hn : (f.pipe x).stream = none
    · simp only [Forwarding.goesOn, if_pos hn] at hx ⊢
      rw [hx, (h.start x hn).1]
      exact ⟨rfl, rfl⟩
    · simp only [Forwarding.goesOn, if_neg hn] at hx
      exact absurd hx hn
  · by_cases hn : (f.pipe x).stream = none
    · obtain ⟨hpipe, hgiven⟩ := h.start x hn
      simp only [Forwarding.goesOn, if_pos hn] at hx ⊢
      rcases hsess x with hsame | ⟨a, hact, -⟩
      · rw [hsame, hgiven] at hx
        cases hx
      · rw [hx, hpipe]
        exact .new (h.linked.sound x) (hlinked.sound x) (h.undisturbed x) (trans_of_step hact).2 hgiven hx
    · simp only [Forwarding.goesOn, if_neg hn] at hx ⊢
      rcases hsess x with hsame | ⟨a, hact, hat⟩
      · rw [hsame]
        exact h.piped hx
      · have hleaves : Leaves (some r) a = true := by
          rcases hl x a hat with hl | hl
          · exact hx ▸ hl
          · exact absurd hl hn
        exact (h.piped hx).step (h.linked.sound x) (h.undisturbed x) (Event.Smooth.act he hat) hleaves
          (trans_of_step hact).2

theorem step (h : Flowing cfg said f) (hb : Pair.Bounded f'.mux) (hs : f.Trans cfg f') : Flowing cfg said f' := by
  have stream_of : ∀ {x}, (f.pipe x).stream ≠ none → ∃ r, (f.pipe x).stream = some r :=
    fun hn => Option.ne_none_iff_exists'.mp hn
  -- a loop that has begun has its stream
  have begun : ∀ {x}, (f.pipe x).up ≠ .reading ∨ (f.pipe x).down ≠ .reading → ∃ r, (f.pipe x).stream = some r :=
    fun {x} hne => stream_of fun hn => by
      rw [(h.start x hn).1] at hne
      exact hne.elim (fun h => h rfl) fun h => h rfl
  cases hs with
  | mux he hl hs => exact h.goesOn he hl hs hb
  | @readConn x k hn hup =>
    obtain ⟨r, hr⟩ := stream_of hn
    have hp := h.piped hr
    have hu : Uploads (f.mux x).sess
        { f.pipe x with up := .holding ((f.pipe x).input.take k), input := (f.pipe x).input.drop k } (said x) r :=
      hp.uploads.go (by simp [hup]) (by simp) (by rw [hup]; rfl) (by simp [hup, Loop.chunk]) (by simp [Loop.over])
    exact h.set hr ⟨hp.holds, hu, hp.downloads.ofDown rfl rfl rfl⟩
  | @write x r b s hr hup hs =>
    have hp := h.piped hr
    have ht := (trans_of_step hs).2
    refine h.run rfl rfl hs hb hr ⟨hp.holds.step (h.linked.sound x).valid ht, hp.uploads.write hup ht, ?_⟩
    have hheap : s.heap = (f.mux x).sess.heap := by cases ht <;> rfl
    exact (hp.downloads.congr (by rw [hheap]) (by rw [hheap]) (by rw [hheap])).ofDown rfl rfl rfl
  | @wrote x b n err hup hpc hret =>
    obtain ⟨r, hr⟩ := begun (x := x) (.inl (by simp [hup]))
    have hp := h.piped hr
    exact h.set hr ⟨hp.holds, hp.uploads.wrote_go hup hpc hret, hp.downloads.ofDown rfl rfl rfl⟩
  | @endInput x hn hup hend =>
    obtain ⟨r, hr⟩ := stream_of hn
    have hp := h.piped hr
    have hover : (f.pipe x).input = [] ∨ ((f.mux x).sess.heap r).cause = some .peerClose := by
      refine hend.imp_right fun hc => ?_
      -- the connection was closed after the stream had ended, and not by this loop
      have hdown := hp.downloads.conn hc
      obtain ⟨cause, hcause⟩ := Option.ne_none_iff_exists'.mp (hp.downloads.ended (by rw [hdown]; rfl)).1
      rcases (h.undisturbed x).cause_of_handed (h.linked.sound x).unique hp.holds.1 hp.holds.2 hcause with hp'
        | ⟨-, hcl⟩
      · exact hp' ▸ hcause
      · rw [hp.uploads.closed, hup] at hcl
        cases hcl
    have hu : Uploads (f.mux x).sess { f.pipe x with up := .ended } (said x) r :=
      hp.uploads.go (by simp [hup]) (by simp) (by rw [hup]; rfl) (by rw [hup]; rfl) fun _ => hover
    exact h.set hr ⟨hp.holds, hu, hp.downloads.ofDown rfl rfl rfl⟩
  | @close x r s hr hup hs =>
    have hp := h.piped hr
    have ht := (trans_of_step hs).2
    refine h.run rfl rfl hs hb hr ⟨hp.holds.step (h.linked.sound x).valid ht,
      hp.uploads.close (h.undisturbed x).handing hp.holds.1 hup ht, ?_⟩
    have hsame : (s.heap r).got = ((f.mux x).sess.heap r).got ∧ (s.heap r).cause = ((f.mux x).sess.heap r).cause ∧
        (s.heap r).received = ((f.mux x).sess.heap r).received := by
      cases ht with
      | closeStreamAgain => exact ⟨rfl, rfl, rfl⟩
      | closeStream => simp [Session.goto, Session.modify, Stream.received]
    exact (hp.downloads.congr hsame.1 hsame.2.1 hsame.2.2).ofDown rfl rfl rfl
  | @closed x hup =>
    obtain ⟨r, hr⟩ := begun (x := x) (.inl (by simp [hup]))
    have hp := h.piped hr
    have hu : Uploads (f.mux x).sess { f.pipe x with up := .done } (said x) r :=
      hp.uploads.go (by simp [hup]) (by simp) (by rw [hup]; rfl) (by rw [hup]; rfl)
        fun _ => hp.uploads.endInput (by rw [hup]; rfl)
    exact h.set hr ⟨hp.holds, hu, hp.downloads.ofDown rfl rfl rfl⟩
  | @readStream x r s hr hdown hs =>
    have hp := h.piped hr
    have ht := (trans_of_step hs).2
    exact h.run rfl rfl hs hb hr ⟨hp.holds.step (h.linked.sound x).valid ht,
      (hp.uploads.readStream ht).ofUp rfl rfl,
      hp.downloads.read (h.linked.sound x).dispatched hp.holds.1 hdown ht⟩
  | @writeConn x b hdown =>
    obtain ⟨r, hr⟩ := begun (x := x) (.inr (by simp [hdown]))
    have hp := h.piped hr
    refine h.set hr ⟨hp.holds, hp.uploads.ofUp rfl rfl, ⟨?_, fun ho => (by cases ho), fun hc => ?_⟩⟩
    · have := hp.downloads.got
      rw [hdown] at this
      simpa [Loop.chunk] using this
    · have := hp.downloads.conn hc
      rw [hdown] at this
      cases this
  | @closeConn x hdown =>
    obtain ⟨r, hr⟩ := begun (x := x) (.inr (by simp [hdown]))
    have hp := h.piped hr
    refine h.set hr ⟨hp.holds, hp.uploads.ofUp rfl rfl, ⟨?_, fun _ => hp.downloads.ended (by rw [hdown]; rfl),
      fun _ => rfl⟩⟩
    have := hp.downloads.got
    rwa [hdown] at this
  | @finish x r s hr hup hdown hs =>
    have hp := h.piped hr
    have ht := (trans_of_step hs).2
    obtain ⟨hheap, hu⟩ := hp.uploads.closeAgain (h.undisturbed x).handing hp.holds.1 (by rw [hup]; rfl) ht
    have hd : Downloads s (f.pipe x) r := hp.downloads.congr (by rw [hheap]) (by rw [hheap]) (by rw [hheap])
    exact h.run rfl rfl hs hb hr ⟨hp.holds.step (h.linked.sound x).valid ht, hu.ofUp rfl rfl,
      ⟨hd.got, hd.ended, fun _ => hdown⟩⟩

end Flowing

namespace Forwarding

variable {said : Side → List UInt8}

/-- A step is one of the sessions, or leaves them alone. -/
theorem Trans.mux_step (h : f.Trans cfg f') : f'.mux = f.mux ∨ ∃ e, f.mux.step cfg e = some f'.mux := by
  have call : ∀ {x a s}, a.Local = true → (f.mux x).sess.step a = some s →
      f.mux.step cfg (.act x a) = some (f.mux.run x s) := fun hl hs => by simp [Pair.step, hl, hs]
  cases h with
  | mux _ _ hs => exact .inr ⟨_, hs⟩
  | write _ _ hs => exact .inr ⟨_, call rfl hs⟩
  | close _ _ hs => exact .inr ⟨_, call rfl hs⟩
  | readStream _ _ hs => exact .inr ⟨_, call rfl hs⟩
  | finish _ _ _ hs => exact .inr ⟨_, call rfl hs⟩
  | _ => exact .inl rfl

/-- **It holds in every state** with fewer than 2³¹ streams on each side. -/
theorem exec_newForwarding_flowing {es : List Event} (h : exec (step cfg) (newForwarding said) es = some f)
    (hb : f.mux.Bounded) : Flowing cfg said f := by
  have hrun : (∀ x, (f.mux x).sess.Valid) ∧ (f.mux.Bounded → Flowing cfg said f) := by
    refine exec_inv (I := fun f : Forwarding => (∀ x, (f.mux x).sess.Valid) ∧ (f.mux.Bounded → Flowing cfg said f))
      ?_ ⟨fun _ => newSession_valid _, fun _ => newForwarding_flowing cfg said⟩ h
    rintro f e f' ⟨hv, hf⟩ hs
    have ht := trans_of_step hs
    rcases ht.mux_step with hm | ⟨e', hm⟩
    · refine ⟨hm ▸ hv, fun hb => (hf (hm ▸ hb)).step hb ht⟩
    · refine ⟨Pair.sess_of_step Session.Valid.step hv hm, fun hb => ?_⟩
      exact (hf (hb.of_step hv hm)).step hb ht
  exact hrun.2 hb

/-- **What a forwarded connection delivers.** What was written to the connection of one side
is a prefix of what the connection of the other side was sent. When the loop from the
stream has ended, either the other side has closed the stream, and everything was
delivered; or this side has, after the end of its own input, and everything of that was
passed to the stream. -/
theorem forwarded {es : List Event} (h : exec (step cfg) (newForwarding said) es = some f) (hb : f.mux.Bounded)
    {x : Side} {r r' : Ref} (hx : (f.pipe x).stream = some r) (hy : (f.pipe x.other).stream = some r')
    (hsame : f.mux.Same x r r') :
    (f.pipe x).output <+: said x.other ∧
    ((f.pipe x).down.over = true →
      ((f.mux x).sess.heap r).cause = some .peerClose ∧ (f.pipe x).output = said x.other ∨
      ((f.mux x).sess.heap r).cause = some (.closeStream (.streamClose r)) ∧ (f.pipe x).up.closes = true ∧
        (f.pipe x).input = [] ∧ ((f.mux x).sess.heap r).put = said x) := by
  have hf := exec_newForwarding_flowing h hb
  have hp := hf.piped hx
  have hq := hf.piped hy
  have hu := hf.undisturbed x
  have hsent : ((f.mux x).sess.heap r).got <+: said x.other := by
    have hdata := (hf.linked.got_le x hp.holds.1).trans (dataOf_mono _ (hf.linked.rcvd_le x))
    rw [hsame.2.2] at hdata
    have hput := hdata.trans ((hf.linked.sound x.other).written.sent r' hq.holds.1)
    rw [hq.uploads.read, List.append_assoc]
    exact hput.trans (List.prefix_append _ _)
  refine ⟨(hp.downloads.got ▸ List.prefix_append _ _ : _ <+: _).trans hsent, fun hover => ?_⟩
  obtain ⟨hcause, hrec⟩ := hp.downloads.ended hover
  have hout : (f.pipe x).output = ((f.mux x).sess.heap r).got := by
    rw [hp.downloads.got]
    cases hd : (f.pipe x).down with
    | holding b => rw [hd] at hover; cases hover
    | _ => exact (List.append_nil _).symm
  obtain ⟨cause, hc⟩ := Option.ne_none_iff_exists'.mp hcause
  rcases hu.cause_of_handed (hf.linked.sound x).unique hp.holds.1 hp.holds.2 hc with rfl | ⟨rfl, hclosed⟩
  · -- the other side had read all its input, and sent it before the close frame
    refine .inl ⟨hc, ?_⟩
    obtain ⟨n, fr, hn, ht, hid, hall⟩ := hf.linked.ended_by_peer hp.holds.1 hc
    have hd : (f.mux x.other).sess.Dropped ((f.mux x.other).sess.heap r').id := by
      have := (hf.undisturbed x.other).ended.sent (List.mem_of_getElem? hn) ht
      rwa [hid, hsame.2.2] at this
    obtain ⟨hcl, hcause'⟩ := (hf.undisturbed x.other).closed_of_dropped (hf.linked.sound x.other).unique
      hq.holds.1 hq.holds.2 hd
    have hall' : (f.pipe x).output = ((f.mux x.other).sess.heap r').put := by
      rw [hout, ← hrec, hall, hsame.2.2]
      exact hq.uploads.frame hn ht (hid.trans hsame.2.2)
    rw [hall', (hq.uploads.said_of_closes hcl hcause').2]
  · obtain ⟨hinput, hput⟩ := hp.uploads.said_of_closes hclosed hc
    exact .inr ⟨hc, hp.uploads.closed.symm.trans hclosed, hinput, hput.symm⟩

/-- Steps of the sessions. -/
def tunnel (es : List Mux.Event) : List Event := es.map .mux

/-- The user sends one byte and the target another. -/
def sampleSaid : Side → List UInt8
  | .server => [7]
  | .client => [9]

/-- The two machines come to have their stream. -/
def attachedRun : List Event :=
  .openStream [] :: tunnel (writesFrame .server mainGid 44 ++ readsFrame .client 28 ++ [.act .client .enqueue]) ++
    [.acceptStream]

/-- One byte goes from the connection at `x` into the tunnel. -/
def sendsByte (x : Side) : List Event :=
  [.readConn x 1, .write x] ++ tunnel (writesFrame x upGid 45 ++ [.act x (.unlock upGid)]) ++ [.wrote x]

/-- The user shuts down its sending side, and the server closes the stream and then the
user's connection; the target's byte is on its way after that. -/
def halfClosedRun : List Event :=
  attachedRun ++ sendsByte .server ++ [.endInput .server, .close .server] ++
    tunnel (.act .server (.dropEntry upGid) :: writesFrame .server upGid 44) ++
    [.closed .server, .readStream .server, .closeConn .server, .finish .server] ++
    tunnel (readsFrame .client 29 ++ [.act .client .push]) ++ [.readStream .client, .writeConn .client] ++
    sendsByte .client ++ tunnel (readsFrame .server 29 ++ readsFrame .client 28) ++
    [.readStream .client, .closeConn .client, .endInput .client, .close .client] ++
    tunnel [.act .client (.dropEntry upGid)] ++ [.closed .client, .finish .client]

/-- What the target gets in `halfClosedRun`. -/
theorem halfClosedRun_forwarded :
    ∃ f, exec (step (sampleConfig 100)) (newForwarding sampleSaid) halfClosedRun = some f ∧
    (f.pipe .client).output <+: [7] ∧ (f.pipe .client).output = [7] := by
  obtain ⟨f, hf, hb, hx, hy, hsame, hover, hcause⟩ := exists_of_any (P := fun f : Forwarding =>
      ((f.mux .server).sess.opens < 2 ^ 31 ∧ (f.mux .client).sess.opens < 2 ^ 31) ∧
        (f.pipe .client).stream = some 0 ∧ (f.pipe .server).stream = some 0 ∧
        (0 < (f.mux .client).sess.fresh ∧ 0 < (f.mux .server).sess.fresh ∧
          ((f.mux .client).sess.heap 0).id = ((f.mux .server).sess.heap 0).id) ∧
        (f.pipe .client).down.over = true ∧ ((f.mux .client).sess.heap 0).cause = some .peerClose)
    (show (exec (step (sampleConfig 100)) (newForwarding sampleSaid) halfClosedRun).any _ = true by decide +kernel)
  obtain ⟨hpre, hall⟩ := forwarded (x := .client) hf (Mux.Pair.bounded_of_sides hb) hx hy hsame
  rcases hall hover with ⟨-, hall⟩ | ⟨hc, -⟩
  · exact ⟨f, hf, hpre, hall⟩
  · cases hcause.symm.trans hc

/-- **The user's half is not transparent**: in `halfClosedRun` the user sends a byte and
shuts down its sending side, and the target sends one. Nothing fails, all loops end, the
target has received the user's byte and the user has received nothing. -/
theorem halfClosedRun_loses : ∃ f, exec (step (sampleConfig 100)) (newForwarding sampleSaid) halfClosedRun = some f ∧
    (∀ x, (f.pipe x).returned = true ∧ (f.pipe x).input = []) ∧ (f.pipe .client).output = sampleSaid .server ∧
    (f.pipe .server).output ≠ sampleSaid .client ∧ (f.pipe .server).output = [] := by
  obtain ⟨f, hf, hs, hc, hout⟩ := exists_of_any (P := fun f : Forwarding =>
      ((f.pipe .server).returned = true ∧ (f.pipe .server).input = []) ∧
        ((f.pipe .client).returned = true ∧ (f.pipe .client).input = []) ∧
        (f.pipe .client).output = sampleSaid .server ∧
        (f.pipe .server).output ≠ sampleSaid .client ∧ (f.pipe .server).output = [])
    (show (exec (step (sampleConfig 100)) (newForwarding sampleSaid) halfClosedRun).any _ = true by decide +kernel)
  exact ⟨f, hf, fun x => by cases x <;> assumption, hout⟩

end Forwarding

end Hawal.Forward
