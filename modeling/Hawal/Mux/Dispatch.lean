import Hawal.Mux.Table

/-!
# What a stream receives

`readLoop` gives the data of each frame to the stream that is registered under the
frame's id. `Dispatched` says how far this has come at any moment of any run: what is
with a stream, the chunk in `readLoop`'s hands included, is a prefix of the data that
has arrived for its id since it was registered. As long as the stream is in the table
and no push was given up it is all of it, and a `FrameStreamClose` fixes it at what
had arrived before.
-/

namespace Hawal.Mux

open Hawal.Lib Hawal.Transport

/-- The data for one stream id in a list of frames. -/
def dataOf (id : UInt32) (fs : List Frame) : List UInt8 :=
  ((fs.filter fun f => f.type = frameData ∧ f.streamID = id).map Frame.payload).flatten

@[simp] theorem dataOf_nil (id : UInt32) : dataOf id [] = [] := rfl

@[simp] theorem dataOf_append (id : UInt32) (fs gs : List Frame) :
    dataOf id (fs ++ gs) = dataOf id fs ++ dataOf id gs := by simp [dataOf]

theorem dataOf_data {id : UInt32} {f : Frame} (ht : f.type = frameData) (hid : f.streamID = id) :
    dataOf id [f] = f.payload := by simp [dataOf, ht, hid]

theorem dataOf_of_type_ne {f : Frame} (id : UInt32) (ht : f.type ≠ frameData) : dataOf id [f] = [] := by
  simp [dataOf, ht]

theorem dataOf_of_id_ne {id : UInt32} {f : Frame} (hid : f.streamID ≠ id) : dataOf id [f] = [] := by
  simp [dataOf, hid]

theorem dataOf_mono {fs gs : List Frame} (id : UInt32) (h : fs <+: gs) : dataOf id fs <+: dataOf id gs := by
  obtain ⟨hs, rfl⟩ := h
  rw [dataOf_append]
  exact List.prefix_append _ _

/-- No data for an id means no frame with data for it. -/
theorem exists_of_dataOf_ne_nil {id : UInt32} {fs : List Frame} (h : dataOf id fs ≠ []) :
    ∃ f ∈ fs, f.type = frameData ∧ f.streamID = id := by
  by_contra hne
  refine h ?_
  have : fs.filter (fun f => f.type = frameData ∧ f.streamID = id) = [] := by
    rw [List.filter_eq_nil_iff]
    exact fun f hf hc => hne ⟨f, hf, by simpa using hc⟩
  rw [dataOf, this]
  rfl

/-- What the frames `rcvd` have given a stream, with `hand` still in `readLoop`'s hands. -/
structure Fed (rcvd : List Frame) (hand : List UInt8) (st : Stream) : Prop where
  since : st.since ≤ rcvd.length
  data : st.received ++ hand <+: dataOf st.id (rcvd.drop st.since)
  cause : st.readChan.closed = true ↔ st.cause ≠ none
  peer : st.cause = some .peerClose → hand = [] ∧ ∃ n f, rcvd[n]? = some f ∧ st.since ≤ n ∧
    f.type = frameStreamClose ∧ f.streamID = st.id ∧ st.received = dataOf st.id ((rcvd.take n).drop st.since)

namespace Fed

variable {rcvd : List Frame} {hand : List UInt8} {st : Stream}

/-- A new stream. -/
theorem new (id : UInt32) (targetPort : List UInt8) : Fed rcvd [] (newStream id targetPort rcvd.length) where
  since := le_rfl
  data := List.nil_prefix
  cause := by simp [newStream]
  peer h := by simp [newStream] at h

/-- Another frame arrives. -/
theorem heard (h : Fed rcvd hand st) (f : Frame) : Fed (rcvd ++ [f]) hand st where
  since := h.since.trans (by simp)
  data := by
    rw [List.drop_append_of_le_length h.since, dataOf_append]
    exact h.data.trans (List.prefix_append _ _)
  cause := h.cause
  peer hc := by
    obtain ⟨hnil, n, f', hn, hle, ht, hid, hr⟩ := h.peer hc
    have hlt : n < rcvd.length := (List.getElem?_eq_some_iff.mp hn).1
    refine ⟨hnil, n, f', ?_, hle, ht, hid, ?_⟩
    · rw [List.getElem?_append_left hlt, hn]
    · rw [List.take_append_of_le_length hlt.le, hr]

/-- The chunk in hand is given up. -/
theorem giveUp (h : Fed rcvd hand st) : Fed rcvd [] st where
  since := h.since
  data := by
    rw [List.append_nil]
    exact (List.prefix_append _ _).trans h.data
  cause := h.cause
  peer hc := ⟨rfl, (h.peer hc).2⟩

/-- The chunk in hand is pushed. -/
theorem push {c : Chan (List UInt8)} (h : Fed rcvd hand st) (hsend : st.readChan.send hand = .sent c) :
    Fed rcvd [] { st with readChan := c } := by
  obtain ⟨hopen, rfl⟩ := Chan.send_eq_sent hsend
  have hnone : ¬ st.cause ≠ none := fun hc => nomatch hopen.symm.trans (h.cause.mpr hc)
  refine ⟨h.since, ?_, h.cause, fun hc => absurd (fun hn => nomatch hn.symm.trans hc) hnone⟩
  simpa [Stream.received, List.append_assoc] using h.data

/-- `readChan` is closed, other than by the peer. -/
theorem endedBy (h : Fed rcvd hand st) {cause : EndCause} (hc : cause ≠ .peerClose) :
    Fed rcvd hand (st.endedBy cause) where
  since := h.since
  data := h.data
  cause := by simp [Stream.endedBy, Chan.close]
  peer hp := absurd (Option.some.inj hp) hc

/-- `readChan` is closed on the peer's `FrameStreamClose`. -/
theorem endedByPeer {f : Frame} (h : Fed rcvd [] st) (ht : f.type = frameStreamClose)
    (hid : f.streamID = st.id) (hall : st.received = dataOf st.id (rcvd.drop st.since)) :
    Fed (rcvd ++ [f]) [] (st.endedBy .peerClose) where
  since := (h.heard f).since
  data := (h.heard f).data
  cause := by simp [Stream.endedBy, Chan.close]
  peer _ := ⟨rfl, rcvd.length, f, by simp, h.since, ht, hid, by rw [List.take_left]; exact hall⟩

/-- `Read` hands bytes out. -/
theorem read {st' : Stream} {n : ℕ} {ret : Ret} (h : Fed rcvd hand st) (hread : st.read n = some (ret, st')) :
    Fed rcvd hand st' := by
  obtain ⟨c, buf, got, rfl, hc, hr⟩ := Stream.read_eq_some hread
  exact ⟨h.since, hr ▸ h.data, (congrArg (· = true) hc ▸ h.cause :), fun hp => hr ▸ h.peer hp⟩

end Fed

namespace Session

/-- The chunk in `readLoop`'s hands, when it is for the stream `r`. -/
def inHandOf (s : Session) (r : Ref) : List UInt8 :=
  match s.inHand with
  | some (r', payload) => if r' = r then payload else []
  | none => []

/-- **What the streams have received**, of the frames that `readLoop` has handled. -/
structure Dispatched (s : Session) : Prop where
  fed : ∀ r < s.fresh, Fed s.rcvd (s.inHandOf r) (s.heap r)
  whole : ∀ {id r}, s.streams.lookup id = some r → s.pc .readLoop ≠ .closing id .pushTimeout →
    (s.heap r).received ++ s.inHandOf r = dataOf id (s.rcvd.drop (s.heap r).since)

variable {s s' : Session}

theorem inHandOf_of_none (h : s.inHand = none) (r : Ref) : s.inHandOf r = [] := by rw [inHandOf, h]

theorem inHandOf_congr (h : s'.inHand = s.inHand) (r : Ref) : s'.inHandOf r = s.inHandOf r := by
  rw [inHandOf, inHandOf, h]

theorem inHand_of_away (h : (s.pc .readLoop).Away) : s.inHand = none := by
  unfold inHand
  split
  · rename_i hp
    rw [hp] at h
    exact h.elim
  · rfl

theorem inHandOf_push {id : UInt32} {r : Ref} {payload : List UInt8} (h : s.pc .readLoop = .push r id payload)
    (r' : Ref) : s.inHandOf r' = if r = r' then payload else [] := by
  rw [inHandOf, inHand_eq_some.mpr ⟨id, h⟩]

theorem newSession_dispatched (isServer : Bool) : (newSession isServer).Dispatched where
  fed r hr := by simp [newSession] at hr
  whole h := by simp [newSession] at h

/-- What `Keeps` means for one stream. -/
theorem Keeps.fed (hk : s.Keeps s') {r : Ref} (h : Fed s.rcvd (s.inHandOf r) (s.heap r)) :
    Fed s'.rcvd (s'.inHandOf r) (s'.heap r) := by
  have hbox := hk.inbox r
  have hid : (s'.heap r).id = (s.heap r).id := congrArg (·.id) hbox
  have hsince : (s'.heap r).since = (s.heap r).since := congrArg (·.since) hbox
  have hcause : (s'.heap r).cause = (s.heap r).cause := congrArg (·.cause) hbox
  have hrecv : (s'.heap r).received = (s.heap r).received := congrArg (·.received) hbox
  rw [inHandOf_congr hk.inHand, hk.rcvd]
  refine ⟨?_, ?_, ?_, ?_⟩
  · rw [hsince]
    exact h.since
  · rw [hrecv, hid, hsince]
    exact h.data
  · rw [hk.readChan r, hcause]
    exact h.cause
  · rw [hcause, hid, hsince, hrecv]
    exact h.peer

theorem Keeps.dispatched (hk : s.Keeps s') (h : s.Dispatched) : s'.Dispatched where
  fed r hr := hk.fed (h.fed r (hk.fresh ▸ hr))
  whole {id r} hl hp := by
    have hbox := hk.inbox r
    have hsince : (s'.heap r).since = (s.heap r).since := congrArg (·.since) hbox
    have hrecv : (s'.heap r).received = (s.heap r).received := congrArg (·.received) hbox
    rw [hk.streams] at hl
    have hp' : s.pc .readLoop ≠ .closing id .pushTimeout := fun hc => by
      rcases hk.givenUp hc with h' | h'
      · exact hp h'
      · exact nomatch h'.symm.trans hl
    rw [hrecv, inHandOf_congr hk.inHand, hk.rcvd, hsince]
    exact h.whole hl hp'

/-- `readLoop` has no chunk for a stream that is not made yet. -/
theorem Valid.inHandOf_fresh (hv : s.Valid) : s.inHandOf s.fresh = [] := by
  unfold inHandOf
  split
  · rename_i r' payload hin
    exact if_neg (hv.inHand_lt hin).ne
  · rfl

/-- A new stream starts with nothing, and nothing has arrived for it. -/
theorem Dispatched.enter (h : s.Dispatched) (hv : s.Valid) (id : UInt32) (targetPort : List UInt8) :
    (s.enter id targetPort).Dispatched where
  fed r hr := by
    by_cases hf : r = s.fresh
    · subst hf
      rw [enter_self, show (s.enter id targetPort).inHandOf s.fresh = [] from hv.inHandOf_fresh]
      exact .new id targetPort
    · rw [enter_of_ne id targetPort hf]
      exact h.fed r (Nat.lt_of_le_of_ne (Nat.le_of_lt_succ hr) hf)
  whole {id' r} hl hp := by
    by_cases hf : r = s.fresh
    · subst hf
      rw [enter_self, show (s.enter id targetPort).inHandOf s.fresh = [] from hv.inHandOf_fresh]
      simp [Session.enter, newStream, Stream.received]
    · rw [enter_of_ne id targetPort hf]
      have hid : id' ≠ id := by
        rintro rfl
        exact hf (by simpa [Session.enter] using hl.symm)
      rw [Session.enter, AList.lookup_insert_ne hid] at hl
      exact h.whole hl hp

/-- An entry leaves the table, and its channel is closed, other than by the peer. -/
theorem Dispatched.drop (h : s.Dispatched) (hv : s.Valid) {id : UInt32} {r : Ref} {cause : EndCause}
    (hl : s.streams.lookup id = some r) (hc : cause ≠ .peerClose) : (s.drop id r cause).Dispatched := by
  rw [hv.drop_eq hl]
  refine ⟨fun r' hr' => ?_, fun {id' r'} hl' hp => ?_⟩
  · by_cases hr : r' = r
    · subst hr
      exact (modify_self (s := s) r' (·.endedBy cause)).symm ▸ (h.fed r' hr').endedBy hc
    · exact (modify_of_ne (s := s) (·.endedBy cause) hr).symm ▸ h.fed r' hr'
  · have hid : id' ≠ id := by
      rintro rfl
      simp at hl'
    rw [AList.lookup_erase_ne hid] at hl'
    have hr : r' ≠ r := fun hr => hid (hv.entry_inj hl' (hr ▸ hl))
    exact (modify_of_ne (s := s) (·.endedBy cause) hr).symm ▸ h.whole hl' hp

/-- A goroutine with no chunk in hand goes on to do something else. -/
theorem Dispatched.goto (h : s.Dispatched) {g : Gid} {p : Pc} (hs : (s.pc g).Still) (hp : p.Away) :
    (s.goto g p).Dispatched := (Keeps.goto hs hp).dispatched h

/-- `readLoop` takes the data of a frame in hand for the stream under the frame's id. -/
theorem Dispatched.take (h : s.Dispatched) (hv : s.Valid) (hr : s.pc .readLoop = .read) {f : Frame} {r : Ref}
    (ht : f.type = frameData) (hl : s.streams.lookup f.streamID = some r) :
    ((s.heard f).goto .readLoop (.push r f.streamID f.payload)).Dispatched := by
  have hnil : ∀ r', s.inHandOf r' = [] := inHandOf_of_none (inHand_of_away (by rw [hr]; trivial))
  have hread : s.pc .readLoop ≠ .closing f.streamID .pushTimeout := by simp [hr]
  obtain ⟨hlt, hid, hopen⟩ := hv.entry hl
  have hhand := inHandOf_push (s := (s.heard f).goto .readLoop (.push r f.streamID f.payload)) (goto_self _ _)
  have hall : (s.heap r).received ++ f.payload = dataOf f.streamID ((s.rcvd ++ [f]).drop (s.heap r).since) := by
    have := h.whole hl hread
    rw [hnil, List.append_nil] at this
    rw [List.drop_append_of_le_length (h.fed r hlt).since, dataOf_append, dataOf_data ht rfl, this]
  refine ⟨fun r' hr' => ?_, fun {id' r'} hl' _ => ?_⟩
  · rw [hhand]
    by_cases hrr : r = r'
    · subst hrr
      rw [if_pos rfl]
      have hnone : ¬ (s.heap r).cause ≠ none := fun hc => nomatch hopen.symm.trans ((h.fed r hlt).cause.mpr hc)
      refine ⟨((h.fed r hlt).heard f).since, ?_, (h.fed r hlt).cause, ?_⟩
      · rw [show (((s.heard f).goto .readLoop (.push r f.streamID f.payload)).heap r).id = f.streamID from hid]
        exact hall ▸ List.prefix_rfl
      · exact fun hc => absurd (fun hn => nomatch hn.symm.trans hc) hnone
    · rw [if_neg hrr]
      exact hnil r' ▸ (h.fed r' hr').heard f
  · rw [hhand]
    by_cases hrr : r = r'
    · subst hrr
      rw [if_pos rfl, hv.entry_inj hl' hl]
      exact hall
    · have hid' : f.streamID ≠ id' := fun he => hrr (Option.some.inj (hl.symm.trans (he ▸ hl')))
      have hw := h.whole hl' (by simp [hr])
      rw [hnil, List.append_nil] at hw
      have hdrop : (s.rcvd ++ [f]).drop (s.heap r').since = s.rcvd.drop (s.heap r').since ++ [f] :=
        List.drop_append_of_le_length (h.fed r' (hv.entry hl').1).since
      rw [if_neg hrr]
      show _ = dataOf id' ((s.rcvd ++ [f]).drop (s.heap r').since)
      rw [hdrop, dataOf_append, dataOf_of_id_ne hid', List.append_nil, List.append_nil]
      exact hw

/-- A frame with no data for a stream of the table. -/
theorem Dispatched.heard (h : s.Dispatched) (hv : s.Valid) {f : Frame}
    (hf : f.type = frameData → s.streams.lookup f.streamID = none) : (s.heard f).Dispatched where
  fed r hr := (h.fed r hr).heard f
  whole {id r} hl hp := by
    have hnone : dataOf id [f] = [] := by
      by_cases ht : f.type = frameData
      · refine dataOf_of_id_ne fun hid => ?_
        have := hf ht
        rw [hid] at this
        exact nomatch this.symm.trans hl
      · exact dataOf_of_type_ne id ht
    show _ = dataOf id ((s.rcvd ++ [f]).drop (s.heap r).since)
    rw [List.drop_append_of_le_length (h.fed r (hv.entry hl).1).since, dataOf_append, hnone, List.append_nil]
    exact h.whole hl hp

/-- The peer has closed a stream of the table. -/
theorem Dispatched.dropByPeer (h : s.Dispatched) (hv : s.Valid) (hr : s.pc .readLoop = .read) {f : Frame}
    {r : Ref} (ht : f.type = frameStreamClose) (hl : s.streams.lookup f.streamID = some r) :
    ((s.heard f).drop f.streamID r .peerClose).Dispatched := by
  have hv' : (s.heard f).Valid := ⟨hv.entry, hv.works, hv.queued, hv.handed, hv.queue⟩
  have hnil : ∀ r', s.inHandOf r' = [] := inHandOf_of_none (inHand_of_away (by rw [hr]; trivial))
  obtain ⟨hlt, hid, -⟩ := hv.entry hl
  have hd : (s.heard f).Dispatched := h.heard hv fun hd => absurd (ht.symm.trans hd) (by decide)
  rw [hv'.drop_eq hl]
  refine ⟨fun r' hr' => ?_, fun {id' r'} hl' hp => ?_⟩
  · by_cases hrr : r' = r
    · subst hrr
      have hall : (s.heap r').received = dataOf (s.heap r').id (s.rcvd.drop (s.heap r').since) := by
        have := h.whole hl (by simp [hr])
        rwa [hnil, List.append_nil, ← hid] at this
      have hfed := Fed.endedByPeer (hnil r' ▸ h.fed r' hlt) ht hid.symm hall
      exact (modify_self (s := s.heard f) r' (·.endedBy .peerClose)).symm ▸ (hnil r').symm ▸ hfed
    · exact (modify_of_ne (s := s.heard f) (·.endedBy .peerClose) hrr).symm ▸ hd.fed r' hr'
  · have hid' : id' ≠ f.streamID := by
      rintro rfl
      simp at hl'
    rw [AList.lookup_erase_ne hid'] at hl'
    have hrr : r' ≠ r := fun hrr => hid' (hv.entry_inj hl' (hrr ▸ hl))
    exact (modify_of_ne (s := s.heard f) (·.endedBy .peerClose) hrr).symm ▸ hd.whole hl' hp

/-- From `ReadFrame`, `readLoop` goes on without a chunk. -/
theorem Dispatched.goto_of_read (h : s.Dispatched) (hr : s.pc .readLoop = .read) {p : Pc}
    (hp : ∀ r id payload, p ≠ .push r id payload) : (s.goto .readLoop p).Dispatched := by
  have hbefore : s.inHand = none := inHand_of_away (by rw [hr]; trivial)
  have hafter : (s.goto .readLoop p).inHand = none := by
    unfold inHand
    split
    · rename_i hpc
      rw [goto_self] at hpc
      exact absurd hpc (hp _ _ _)
    · rfl
  have hsame := inHandOf_congr (hafter.trans hbefore.symm)
  exact ⟨fun r hlt => hsame r ▸ h.fed r hlt, fun hl _ => hsame _ ▸ h.whole hl (by simp [hr])⟩

theorem Dispatched.dispatch (h : s.Dispatched) (hv : s.Valid) (hr : s.pc .readLoop = .read) (f : Frame) :
    (s.dispatch f).Dispatched := by
  have hv' : (s.heard f).Valid := ⟨hv.entry, hv.works, hv.queued, hv.handed, hv.queue⟩
  rcases s.dispatch_cases f with ⟨ht, hs⟩ | ⟨r, ht, hl, hs⟩ | ⟨r, ht, hl, hs⟩ | ⟨ht, hs⟩ | ⟨-, -, hl, hs⟩
  all_goals rw [hs]
  · have hd : (s.heard f).Dispatched := h.heard hv fun hd => absurd (ht.symm.trans hd) (by decide)
    exact (hd.enter hv' f.streamID f.payload).goto_of_read hr fun _ _ _ hp => nomatch hp
  · exact h.take hv hr ht hl
  · exact h.dropByPeer hv hr ht hl
  · have hd : (s.heard f).Dispatched := h.heard hv fun hd => absurd (ht.symm.trans hd) (by decide)
    exact hd.goto_of_read hr fun _ _ _ hp => nomatch hp
  · exact h.heard hv fun hd => hl (.inl hd)

/-- The chunk in hand goes into the stream's channel. -/
theorem Dispatched.push (h : s.Dispatched) {r : Ref} {id : UInt32} {payload : List UInt8}
    {c : Chan (List UInt8)} (hr : s.pc .readLoop = .push r id payload)
    (hsend : (s.heap r).readChan.send payload = .sent c) :
    ((s.modify r ({ · with readChan := c })).goto .readLoop .read).Dispatched := by
  have hhand := inHandOf_push hr
  have hnil : ∀ r', ((s.modify r ({ · with readChan := c })).goto .readLoop .read).inHandOf r' = [] :=
    inHandOf_of_none (inHand_of_away (by rw [goto_self]; trivial))
  have hpc : ∀ id', s.pc .readLoop ≠ .closing id' .pushTimeout := fun id' hc => nomatch hr.symm.trans hc
  refine ⟨fun r' hr' => ?_, fun {id' r'} hl _ => ?_⟩
  · rw [hnil, goto_heap]
    have hf := h.fed r' hr'
    rw [hhand] at hf
    by_cases hrr : r = r'
    · subst hrr
      rw [if_pos rfl] at hf
      exact (modify_self (s := s) r ({ · with readChan := c })).symm ▸ hf.push hsend
    · rw [if_neg hrr] at hf
      exact (modify_of_ne (s := s) ({ · with readChan := c }) (Ne.symm hrr)).symm ▸ hf
  · rw [hnil, goto_heap]
    have hw := h.whole hl (hpc id')
    rw [hhand] at hw
    by_cases hrr : r = r'
    · subst hrr
      obtain ⟨-, rfl⟩ := Chan.send_eq_sent hsend
      rw [if_pos rfl] at hw
      rw [modify_self]
      show _ = dataOf id' (s.rcvd.drop (s.heap r).since)
      simpa [Stream.received, List.append_assoc] using hw
    · rw [if_neg hrr] at hw
      exact (modify_of_ne (s := s) ({ · with readChan := c }) (Ne.symm hrr)).symm ▸ hw

/-- The chunk in hand is given up. -/
theorem Dispatched.timeout (h : s.Dispatched) (hv : s.Valid) {r : Ref} {id : UInt32} {payload : List UInt8}
    (hr : s.pc .readLoop = .push r id payload) :
    (s.goto .readLoop (.closing id .pushTimeout)).Dispatched := by
  have hnil : ∀ r', (s.goto .readLoop (.closing id .pushTimeout)).inHandOf r' = [] :=
    inHandOf_of_none (inHand_of_away (by rw [goto_self]; trivial))
  have hpc : ∀ id', s.pc .readLoop ≠ .closing id' .pushTimeout := fun id' hc => nomatch hr.symm.trans hc
  refine ⟨fun r' hr' => hnil r' ▸ (h.fed r' hr').giveUp, fun {id' r'} hl hp => ?_⟩
  have hid : id' ≠ id := by
    rintro rfl
    exact hp (goto_self _ _)
  have hrr : r ≠ r' := by
    rintro rfl
    have hw := (hv.works (g := .readLoop) (by rw [hr]; rfl)).2
    exact hid ((hv.entry hl).2.1.symm.trans hw)
  have hw := h.whole hl (hpc id')
  rw [inHandOf_push hr, if_neg hrr] at hw
  exact hnil r' ▸ hw

/-- **Every step keeps what the streams have received in line with the frames handled.** -/
theorem Dispatched.step {a : Act} (h : s.Dispatched) (hv : s.Valid) (hs : s.step a = some s') :
    s'.Dispatched := by
  cases (trans_of_step hs).2.receives hv with
  | keeps hk => exact hk.dispatched h
  | @openStream g targetPort hg =>
    have he := h.enter hv (s.nextStreamID + 2) targetPort
    have hgo := he.goto (g := g) (p := .waitMu (.openFrame s.fresh (s.nextStreamID + 2) targetPort))
      (show (s.pc g).Still by rw [hg]; trivial) trivial
    exact ⟨hgo.fed, hgo.whole⟩
  | @read g r n ret st hg hh hread =>
    have hm : (s.modify r fun _ => st).Dispatched := by
      obtain ⟨c, buf, got, hst, -, hrecv⟩ := Stream.read_eq_some hread
      refine ⟨fun r' hr' => ?_, fun {id r'} hl hp => ?_⟩
      · by_cases hrr : r' = r
        · subst hrr
          exact (modify_self (s := s) r' fun _ => st).symm ▸ (h.fed r' hr').read hread
        · exact (modify_of_ne (s := s) (fun _ => st) hrr).symm ▸ h.fed r' hr'
      · by_cases hrr : r' = r
        · subst hrr
          have hsince : st.since = (s.heap r').since := by rw [hst]
          rw [modify_self, hrecv, hsince]
          exact h.whole hl hp
        · exact (modify_of_ne (s := s) (fun _ => st) hrr).symm ▸ h.whole hl hp
    exact (Keeps.answer (s := s.modify r fun _ => st) (show (s.pc g).Still by rw [hg]; trivial)).dispatched hm
  | @dropEntry g id why r hg hl =>
    have hd : (s.drop id r (.closeStream why)).Dispatched := h.drop hv hl fun h => nomatch h
    rw [hv.drop_eq hl] at hd ⊢
    refine Keeps.dispatched (@Keeps.goto_of_missing _ g id why _ ?_ ?_ trivial) hd
    · exact hg
    · exact AList.lookup_erase id s.streams
  | recv hr => exact h.dispatch hv hr _
  | enqueuePanics => exact ⟨h.fed, h.whole⟩
  | pushPanics => exact ⟨h.fed, h.whole⟩
  | push hr hsend => exact h.push hr hsend
  | timeout hr => exact h.timeout hv hr
  | closeStreams hg ho =>
    rw [hv.closeStreams_eq]
    refine ⟨fun r hr => ?_, fun hl => by simp at hl⟩
    have hf := h.fed r hr
    dsimp only
    split
    · exact hf.endedBy fun h => nomatch h
    · exact hf
  | closeAccept => exact ⟨h.fed, h.whole⟩

end Session

end Hawal.Mux
