import Hawal.Mux.Pair

/-!
# What is on the wire

The frames that `readLoop` of one side has handled are the first frames that the other
side has sent, whole and in order (`Carried`): the bytes that its `ReadFrame` holds,
those in the connection and those of the `WriteFrame` in progress are the rest.
-/

namespace Hawal.Mux

open Hawal.Lib Hawal.Transport

namespace Session

variable {s s' : Session} {a : Act}

theorem dispatch_eq_of_valid (hv : s.Valid) (f : Frame) : ∃ streams heap fresh pc, s.dispatch f =
    { s.heard f with streams := streams, heap := heap, fresh := fresh, pc := pc } ∧
      ∀ {g}, g ≠ .readLoop → pc g = s.pc g := by
  have hv' : (s.heard f).Valid := ⟨hv.entry, hv.works, hv.queued, hv.handed, hv.queue⟩
  rcases s.dispatch_cases f with ⟨-, hd⟩ | ⟨r, -, hl, hd⟩ | ⟨r, -, hl, hd⟩ | ⟨-, hd⟩ | ⟨-, -, -, hd⟩
  all_goals rw [hd]
  · exact ⟨_, _, _, _, rfl, fun hg => Function.update_of_ne hg _ _⟩
  · exact ⟨_, _, _, _, rfl, fun hg => Function.update_of_ne hg _ _⟩
  · rw [hv'.drop_eq hl]
    exact ⟨_, _, _, _, rfl, fun _ => rfl⟩
  · exact ⟨_, _, _, _, rfl, fun hg => Function.update_of_ne hg _ _⟩
  · exact ⟨_, _, _, _, rfl, fun _ => rfl⟩

@[simp] theorem dispatch_rcvd (hv : s.Valid) (f : Frame) : (s.dispatch f).rcvd = s.rcvd ++ [f] := by
  obtain ⟨_, _, _, _, hd, -⟩ := dispatch_eq_of_valid hv f
  rw [hd]
  rfl

/-- Only `recv` is about what was received. -/
theorem Trans.rcvd (hv : s.Valid) (h : s.Trans a s') (ha : ∀ f, a ≠ .recv f) : s'.rcvd = s.rcvd := by
  cases h.sends hv with
  | quiet hq => exact hq.rcvd
  | @lock _ j => cases j <;> rfl
  | @endFrame g j ok =>
    cases j with
    | openFrame => cases ok <;> rfl
    | closeFrame id why => cases why <;> rfl
    | data => cases ok <;> rfl
    | _ => rfl
  | @unlock g j => cases j <;> rfl
  | recv => exact absurd rfl (ha _)
  | closeStreams =>
    rw [hv.closeStreams_eq]
  | _ => rfl

/-- Only the start of a `WriteFrame` is about what was sent. -/
theorem Trans.sent (hv : s.Valid) (h : s.Trans a s') (ha : ∀ g, a ≠ .beginFrame g) : s'.sent = s.sent := by
  cases h.sends hv with
  | quiet hq => exact hq.sent
  | @lock _ j => cases j <;> rfl
  | beginFrame => exact absurd rfl (ha _)
  | @endFrame g j ok =>
    cases j with
    | openFrame => cases ok <;> rfl
    | closeFrame id why => cases why <;> rfl
    | data => cases ok <;> rfl
    | _ => rfl
  | @unlock g j => cases j <;> rfl
  | @recv f =>
    obtain ⟨_, _, _, _, hd, -⟩ := dispatch_eq_of_valid hv f
    rw [hd]
    rfl
  | closeStreams =>
    rw [hv.closeStreams_eq]
  | _ => rfl

/-- Only the end of a `WriteFrame` is about failed writes. -/
theorem Trans.writeFailed (hv : s.Valid) (h : s.Trans a s') (ha : ∀ g ok, a ≠ .endFrame g ok) :
    s'.writeFailed = s.writeFailed := by
  cases h.sends hv with
  | quiet hq => exact hq.writeFailed
  | @lock _ j => cases j <;> rfl
  | endFrame => exact absurd rfl (ha _ _)
  | @unlock g j => cases j <;> rfl
  | @recv f =>
    obtain ⟨_, _, _, _, hd, -⟩ := dispatch_eq_of_valid hv f
    rw [hd]
    rfl
  | closeStreams =>
    rw [hv.closeStreams_eq]
  | _ => rfl

theorem endWrite_writeFailed (g : Gid) (j : Job) (ok : Bool) :
    (s.endWrite g j ok).writeFailed = (s.writeFailed || !ok) := by
  cases j with
  | openFrame => cases ok <;> rfl
  | closeFrame id why => cases why <;> rfl
  | data => cases ok <;> rfl
  | _ => rfl

/-- A `WriteFrame` goes on until it returns. -/
theorem Trans.writing (hv : s.Valid) (h : s.Trans a s') (ha : ∀ g ok, a ≠ .endFrame g ok) {g : Gid} {j : Job}
    (hg : s.pc g = .writing j) : s'.pc g = .writing j := by
  have other : ∀ {g' p}, s.pc g' = p → p ≠ .writing j → g ≠ g' := fun {g' p} hg' hp => by
    rintro rfl
    exact hp (hg'.symm.trans hg)
  have stays : ∀ {g' p}, g ≠ g' → (s.goto g' p).pc g = .writing j := fun hne => (goto_of_ne _ hne).trans hg
  cases h.sends hv with
  | quiet hq =>
    rcases hq.pc g with he | ⟨-, hn⟩
    · exact he.trans hg
    · exact absurd (hg ▸ trivial) hn
  | openStream hg' => exact stays (p := .waitMu _) (other hg' fun h => nomatch h)
  | acceptStream hg' => exact stays (p := .idle) (other hg' fun h => nomatch h)
  | write hg' => exact stays (other hg' fun h => nomatch h)
  | @lock g' j' hg' =>
    have hs : (s.goto g' (.locked j')).pc g = .writing j := stays (other hg' fun h => nomatch h)
    cases j' <;> exact hs
  | @beginFrame g' j' hg' => exact stays (p := .writing j') (other hg' fun h => nomatch h)
  | endFrame => exact absurd rfl (ha _ _)
  | @unlock g' j' hg' =>
    have hne := other hg' fun h => nomatch h
    cases j' with
    | data => exact stays (p := .idle) hne
    | _ => exact stays (p := .exited) hne
  | @recv f hr =>
    obtain ⟨_, _, _, _, hd, hpc⟩ := dispatch_eq_of_valid hv f
    rw [hd]
    exact (hpc (other hr fun h => nomatch h)).trans hg
  | enqueue hg' => exact stays (p := .read) (other hg' fun h => nomatch h)
  | closeStreams =>
    rw [hv.closeStreams_eq]
    exact hg

/-- Only `Session.Close` closes the connection. -/
theorem Trans.connClosed_eq (hv : s.Valid) (h : s.Trans a s') (ha : ∀ g, a ≠ .closeConn g) :
    s'.connClosed = s.connClosed := by
  cases h with
  | closeAgain =>
    rename_i g _ _
    cases g <;> rfl
  | dropEntry _ hl =>
    rw [hv.drop_eq hl]
    rfl
  | @dropMissing _ _ why => cases why <;> rfl
  | @lock _ j => cases j <;> rfl
  | @endFrame g j ok =>
    cases j with
    | openFrame => cases ok <;> rfl
    | closeFrame id why => cases why <;> rfl
    | data => cases ok <;> rfl
    | _ => rfl
  | @unlock g j => cases j <;> rfl
  | @recv f =>
    obtain ⟨_, _, _, _, hd, -⟩ := dispatch_eq_of_valid hv f
    rw [hd]
    rfl
  | closeStreams => rw [hv.closeStreams_eq]
  | closeAccept =>
    unfold Session.closeAccept
    split <;> rfl
  | closeConn => exact absurd rfl (ha _)
  | _ => rfl

/-- A connection that was closed stays closed. -/
theorem Trans.connClosed (hv : s.Valid) (h : s.Trans a s') (hc : s'.connClosed = false) : s.connClosed = false := by
  by_cases ha : ∃ g, a = .closeConn g
  · obtain ⟨g, rfl⟩ := ha
    cases h with
    | closeConn => exact nomatch hc
  · rw [← h.connClosed_eq hv fun g he => ha ⟨g, he⟩, hc]

end Session

variable {cfg : Config} {p p' : Pair} {x : Side}

/-- **What is on the wire** from `x` to the other side. -/
structure Carried (cfg : Config) (p : Pair) (x : Side) : Prop where
  frames : (p x).calls.map WriteCall.frame = (p x).sess.sent
  flight : ∃ done rest, (p x).calls = done ++ rest ∧ (p x.other).sess.rcvd = done.map WriteCall.frame ∧
    (framing cfg.crypto).Partial (p x.other).held rest ∧
    (p x.other).held ++ (p x).wire <+: (framing cfg.crypto).puts rest ∧
    ((p x).Open → (p x.other).held ++ (p x).wire ++ (p x).pending = (framing cfg.crypto).puts rest)
  whole : (p x).Open → (p x).sess.writeFailed = false
  writing : (p x).Open → (p x).pending ≠ [] → ∃ g j, (p x).sess.pc g = .writing j

theorem newPair_carried (cfg : Config) (x : Side) : Carried cfg newPair x where
  frames := rfl
  flight := ⟨[], [], rfl, rfl, .inl rfl, List.prefix_rfl, fun _ => rfl⟩
  whole _ := rfl
  writing _ h := absurd rfl h

namespace Carried

/-- **What a side has received is the start of what the other has sent.** -/
theorem rcvd_le_sent (h : Carried cfg p x) : (p x.other).sess.rcvd <+: (p x).sess.sent := by
  obtain ⟨done, rest, hcalls, hrcvd, -⟩ := h.flight
  rw [← h.frames, hcalls, hrcvd, List.map_append]
  exact List.prefix_append _ _

/-- A step that leaves the bytes alone. -/
theorem congr (h : Carried cfg p x) (hcalls : (p' x).calls = (p x).calls)
    (hwire : (p' x).wire = (p x).wire) (hpending : (p' x).pending = (p x).pending)
    (hheld : (p' x.other).held = (p x.other).held) (hrcvd : (p' x.other).sess.rcvd = (p x.other).sess.rcvd)
    (hsent : (p' x).sess.sent = (p x).sess.sent) (hopen : (p' x).Open → (p x).Open)
    (hfailed : (p' x).sess.writeFailed = (p x).sess.writeFailed)
    (hpc : ∀ {g j}, (p x).sess.pc g = .writing j → (p' x).sess.pc g = .writing j) : Carried cfg p' x where
  frames := by rw [hcalls, h.frames, hsent]
  flight := by
    obtain ⟨done, rest, h₁, h₂, h₃, h₄, h₅⟩ := h.flight
    refine ⟨done, rest, hcalls.trans h₁, hrcvd.trans h₂, hheld ▸ h₃, ?_, fun ho => ?_⟩
    · rw [hheld, hwire]
      exact h₄
    · rw [hheld, hwire, hpending]
      exact h₅ (hopen ho)
  whole ho := hfailed.trans (h.whole (hopen ho))
  writing ho hp := by
    obtain ⟨g, j, hg⟩ := h.writing (hopen ho) (hpending ▸ hp)
    exact ⟨g, j, hpc hg⟩

/-- A step of one of the two sessions that is neither the start nor the end of a
`WriteFrame`, and does not return a frame. -/
theorem run (h : Carried cfg p x) {z : Side} {a : Act} {s : Session} (hv : (p z).sess.Valid)
    (hs : (p z).sess.step a = some s) (hb : ∀ g, a ≠ .beginFrame g) (he : ∀ g ok, a ≠ .endFrame g ok)
    (hr : ∀ f, a ≠ .recv f) : Carried cfg (p.run z s) x := by
  have ht := (Session.trans_of_step hs).2
  rcases Side.eq_or_eq_other x z with rfl | rfl
  · have hx : p.run z s z = { p z with sess := s } := Pair.run_self s
    have hy : p.run z s z.other = p z.other := Pair.run_other s
    refine h.congr ?_ ?_ ?_ ?_ ?_ ?_ (fun ho => ?_) ?_ fun hg => ?_
    · rw [hx]
    · rw [hx]
    · rw [hx]
    · rw [hy]
    · rw [hy]
    · rw [hx]
      exact ht.sent hv hb
    · rw [hx] at ho
      exact ⟨ho.1, ht.connClosed hv ho.2⟩
    · rw [hx]
      exact ht.writeFailed hv he
    · rw [hx]
      exact ht.writing hv he hg
  · have hx : p.run x.other s x = p x := Pair.put_of_ne _ x.other_ne.symm
    have hy : p.run x.other s x.other = { p x.other with sess := s } := Pair.run_self s
    refine h.congr ?_ ?_ ?_ ?_ ?_ ?_ (fun ho => ?_) ?_ fun hg => ?_
    · rw [hx]
    · rw [hx]
    · rw [hx]
    · rw [hy]
    · rw [hy]
      exact ht.rcvd hv hr
    · rw [hx]
    · rwa [hx] at ho
    · rw [hx]
    · rwa [hx]

/-- A `WriteFrame` of `x` begins: on an open connection the one before it has returned. -/
theorem emit (h : Carried cfg p x) {g : Gid} {j : Job} {c : WriteCall} {s : Session} (hl : (p x).sess.Locked)
    (hg : (p x).sess.pc g = .locked j) (hc : c.frame = j.frame)
    (hs : (p x).sess.step (.beginFrame g) = some s) : Carried cfg (p.emit cfg x c s) x := by
  have hsess : s = (p x).sess.beginWrite g j := by
    obtain ⟨-, ht⟩ := Session.trans_of_step hs
    cases ht with
    | beginFrame hg' => rw [hg, Pc.locked.injEq] at hg'; rw [hg']
  have hx : p.emit cfg x c s x = { p x with
      sess := s
      pending := c.bytes cfg.crypto
      calls := if (p x).sess.writeFailed then (p x).calls else (p x).calls ++ [c] } := Pair.emit_self c s
  have hy : p.emit cfg x c s x.other = p x.other := Pair.emit_other c s
  have hpend : (p x).Open → (p x).pending = [] := fun ho => by
    by_contra hne
    obtain ⟨g', j', hg'⟩ := h.writing ho hne
    have hm : (p x).sess.writeMu = some g' := (hl g').mp (hg' ▸ trivial)
    have hm' : (p x).sess.writeMu = some g := (hl g).mp (hg ▸ trivial)
    have hgg : g' = g := Option.some.inj (hm.symm.trans hm')
    rw [hgg, hg] at hg'
    cases hg'
  obtain ⟨done, rest, h₁, h₂, h₃, h₄, h₅⟩ := h.flight
  refine ⟨?_, ?_, fun ho => ?_, fun _ _ => ⟨g, j, ?_⟩⟩
  · rw [hx, hsess]
    simp only [Session.beginWrite]
    split_ifs
    · exact h.frames
    · rw [List.map_append, h.frames, List.map_singleton, hc]
  · rw [hx, hy]
    by_cases hf : (p x).sess.writeFailed = true
    · refine ⟨done, rest, by simp only [hf, if_true, h₁], h₂, h₃, h₄, fun ho => ?_⟩
      have ho' : (p x).Open := ⟨ho.1, by have := ho.2; rwa [hsess] at this⟩
      cases hf.symm.trans (h.whole ho')
    · refine ⟨done, rest ++ [c], by simp [hf, h₁], h₂, h₃.append _ [c], ?_, fun ho => ?_⟩
      · rw [Framing.puts_append]
        exact h₄.trans (List.prefix_append _ _)
      · have ho' : (p x).Open := ⟨ho.1, by have := ho.2; rwa [hsess] at this⟩
        have hall := h₅ ho'
        rw [hpend ho', List.append_nil] at hall
        rw [Framing.puts_append, ← hall]
        simp [framing]
  · rw [hx] at ho ⊢
    have ho' : (p x).Open := ⟨ho.1, by have := ho.2; rwa [hsess] at this⟩
    rw [hsess]
    exact h.whole ho'
  · rw [hx, hsess]
    exact Session.goto_self _ _

/-- The connection takes bytes. -/
theorem take (h : Carried cfg p x) (ho : (p x).Open) (k : ℕ) : Carried cfg (p.take x k) x := by
  have hx : p.take x k x =
      { p x with pending := (p x).pending.drop k, wire := (p x).wire ++ (p x).pending.take k } := Pair.take_self k
  have hy : p.take x k x.other = p x.other := Pair.take_other k
  obtain ⟨done, rest, h₁, h₂, h₃, -, h₅⟩ := h.flight
  have hall : (p x.other).held ++ ((p x).wire ++ (p x).pending.take k) ++ (p x).pending.drop k =
      (framing cfg.crypto).puts rest := by
    rw [← h₅ ho, List.append_assoc, List.append_assoc, List.append_assoc, List.take_append_drop]
  refine ⟨?_, ⟨done, rest, ?_⟩, fun _ => ?_, fun _ hp => ?_⟩
  · rw [hx]
    exact h.frames
  · rw [hx, hy]
    exact ⟨h₁, h₂, h₃, hall ▸ List.prefix_append _ _, fun _ => hall⟩
  · rw [hx]
    exact h.whole ho
  · rw [hx] at hp ⊢
    refine h.writing ho fun hnil => hp ?_
    rw [hnil]
    exact List.drop_nil

/-- A `WriteFrame` of `x` returns. -/
theorem finish (h : Carried cfg p x) {g : Gid} {ok : Bool} {s : Session} (hv : (p x).sess.Valid)
    (hok : ok = true → (p x).pending = []) (hs : (p x).sess.step (.endFrame g ok) = some s) :
    Carried cfg (p.finish x ok s) x := by
  have ht := (Session.trans_of_step hs).2
  have hx : p.finish x ok s x = { p x with sess := s, pending := [], cut := (p x).cut || !ok } := Pair.finish_self ok s
  have hy : p.finish x ok s x.other = p x.other := Pair.finish_other ok s
  have hopen : (p.finish x ok s x).Open → (p x).Open ∧ ok = true := fun ho => by
    rw [hx] at ho
    obtain ⟨hc, hok⟩ := Bool.or_eq_false_iff.mp ho.1
    exact ⟨⟨hc, ht.connClosed hv ho.2⟩, by simpa using hok⟩
  obtain ⟨done, rest, h₁, h₂, h₃, h₄, h₅⟩ := h.flight
  refine ⟨?_, ⟨done, rest, ?_⟩, fun ho => ?_, fun _ hp => ?_⟩
  · rw [hx, show s.sent = (p x).sess.sent from ht.sent hv fun g h => nomatch h]
    exact h.frames
  · refine ⟨by rw [hx]; exact h₁, by rw [hy]; exact h₂, by rw [hy]; exact h₃, by rw [hx, hy]; exact h₄, fun ho => ?_⟩
    obtain ⟨ho', hok'⟩ := hopen ho
    rw [hx, hy]
    have hall := h₅ ho'
    rwa [hok hok'] at hall
  · obtain ⟨ho', hok'⟩ := hopen ho
    rw [hx]
    cases ht with
    | endFrame => rw [Session.endWrite_writeFailed, h.whole ho', hok']; rfl
  · rw [hx] at hp
    exact absurd rfl hp

/-- The other side's `ReadFrame` gets bytes it has asked for. -/
theorem give (h : Carried cfg p x) {k m : ℕ} (hm : readFrame cfg.crypto (p x.other).held = .error (.short m))
    (hk : k ≤ m) : Carried cfg (p.give x.other k) x := by
  have hx : p.give x.other k x = { p x with wire := (p x).wire.drop k } := by
    have := Pair.give_other (p := p) (x := x.other) k
    rwa [Side.other_other] at this
  have hy : p.give x.other k x.other = { p x.other with held := (p x.other).held ++ (p x).wire.take k } := by
    have := Pair.give_self (p := p) (x := x.other) k
    rwa [Side.other_other] at this
  obtain ⟨done, rest, h₁, h₂, h₃, h₄, h₅⟩ := h.flight
  have hsame : (p x.other).held ++ (p x).wire.take k ++ (p x).wire.drop k = (p x.other).held ++ (p x).wire := by
    rw [List.append_assoc, List.take_append_drop]
  refine ⟨?_, ⟨done, rest, ?_⟩, fun ho => ?_, fun ho hp => ?_⟩
  · rw [hx]
    exact h.frames
  · rw [hx, hy]
    refine ⟨h₁, h₂, ?_, hsame.symm ▸ h₄, fun ho => hsame.symm ▸ h₅ ho⟩
    refine Framing.Partial.take (m := m) _ h₃ ?_ hm ((List.length_take_le _ _).trans hk)
    exact (hsame ▸ List.prefix_append _ _ : (p x.other).held ++ (p x).wire.take k <+: _).trans h₄
  · rw [hx] at ho ⊢
    exact h.whole ho
  · rw [hx] at ho hp ⊢
    exact h.writing ho hp

/-- The other side's `ReadFrame` returns a frame: it is the next one. -/
theorem got (h : Carried cfg p x) {f : Frame} {rest : List UInt8} {s : Session} (hv : (p x.other).sess.Valid)
    (hr : readFrame cfg.crypto (p x.other).held = .ok (f, rest))
    (hs : (p x.other).sess.step (.recv f) = some s) : Carried cfg (p.got x.other rest s) x := by
  have ht := (Session.trans_of_step hs).2
  have hx : p.got x.other rest s x = p x := Pair.put_of_ne _ x.other_ne.symm
  have hy : p.got x.other rest s x.other = { p x.other with sess := s, held := rest } := Pair.got_self rest s
  obtain ⟨done, flying, h₁, h₂, h₃, h₄, h₅⟩ := h.flight
  obtain ⟨c, flying', rfl, -, hheld, hf, hrest⟩ := h₃.complete _ hr
  have hrcvd : s.rcvd = (p x.other).sess.rcvd ++ [f] := by
    cases ht with
    | recv => exact Session.dispatch_rcvd hv f
  rw [Framing.puts_cons, ← hheld] at h₄ h₅
  refine ⟨?_, ⟨done ++ [c], flying', ?_, ?_, ?_, ?_, fun ho => ?_⟩, fun ho => ?_, fun ho hp => ?_⟩
  · rw [hx]
    exact h.frames
  · rw [hx, h₁, List.append_assoc, List.singleton_append]
  · rw [hy, hrcvd, h₂, hf, List.map_append]
    rfl
  · rw [hy]
    exact .inl hrest
  · rw [hx, hy, hrest]
    exact (List.prefix_append_right_inj _).mp h₄
  · rw [hx] at ho ⊢
    rw [hy, hrest]
    have hall := h₅ ho
    rw [List.append_assoc] at hall
    exact List.append_cancel_left hall
  · rw [hx] at ho ⊢
    exact h.whole ho
  · rw [hx] at ho hp ⊢
    exact h.writing ho hp

/-- A step at the other end that is not about what it receives. -/
theorem atOther (h : Carried cfg p x) {e : End} (hheld : e.held = (p x.other).held)
    (hrcvd : e.sess.rcvd = (p x.other).sess.rcvd) : Carried cfg (p.put x.other e) x := by
  have hx : p.put x.other e x = p x := Pair.put_of_ne _ x.other_ne.symm
  have hy : p.put x.other e x.other = e := Pair.put_self _
  exact h.congr (by rw [hx]) (by rw [hx]) (by rw [hx]) (by rw [hy, hheld]) (by rw [hy, hrcvd]) (by rw [hx])
    (fun ho => hx ▸ ho) (by rw [hx]) fun hg => by rwa [hx]

/-- **Every step keeps the wire in line.** -/
theorem step (h : Carried cfg p x) (hv : ∀ z, (p z).sess.Valid) (hl : ∀ z, (p z).sess.Locked) {e : Event}
    (hstep : p.step cfg e = some p') : Carried cfg p' x := by
  cases Pair.trans_of_step hstep with
  | @act z a s ha hs =>
    exact h.run (hv z) hs (fun g h => by rw [h] at ha; exact nomatch ha)
      (fun g ok h => by rw [h] at ha; exact nomatch ha) fun f h => by rw [h] at ha; exact nomatch ha
  | @beginFrame z g draws j s hlt hg hs =>
    rcases Side.eq_or_eq_other x z with rfl | rfl
    · exact h.emit (hl z) hg rfl hs
    · exact h.atOther rfl ((Session.trans_of_step hs).2.rcvd (hv x.other) fun f h => nomatch h)
  | @send z k ho hk =>
    rcases Side.eq_or_eq_other x z with rfl | rfl
    · exact h.take ho k
    · exact h.atOther rfl rfl
  | @endFrame z g s hp hs =>
    rcases Side.eq_or_eq_other x z with rfl | rfl
    · exact h.finish (hv z) (fun _ => hp) hs
    · exact h.atOther rfl ((Session.trans_of_step hs).2.rcvd (hv x.other) fun f h => nomatch h)
  | @failFrame z g s hp hf hs =>
    rcases Side.eq_or_eq_other x z with rfl | rfl
    · exact h.finish (hv z) (fun h => nomatch h) hs
    · exact h.atOther rfl ((Session.trans_of_step hs).2.rcvd (hv x.other) fun f h => nomatch h)
  | @pull z k m hr hk hm hkm =>
    rcases Side.eq_or_eq_other x z with rfl | rfl
    · have hx : p.give z k z = { p z with held := (p z).held ++ (p z.other).wire.take k } := Pair.give_self k
      have hy : p.give z k z.other = { p z.other with wire := (p z.other).wire.drop k } := Pair.give_other k
      exact h.congr (by rw [hx]) (by rw [hx]) (by rw [hx]) (by rw [hy]) (by rw [hy]) (by rw [hx])
        (fun ho => by rwa [hx] at ho) (by rw [hx]) fun hg => by rwa [hx]
    · exact h.give hm hkm
  | @recv z f rest s hr hs =>
    rcases Side.eq_or_eq_other x z with rfl | rfl
    · have ht := (Session.trans_of_step hs).2
      have hx : p.got z rest s z = { p z with sess := s, held := rest } := Pair.got_self rest s
      have hy : p.got z rest s z.other = p z.other := Pair.got_other rest s
      exact h.congr (by rw [hx]) (by rw [hx]) (by rw [hx]) (by rw [hy]) (by rw [hy])
        (by rw [hx]; exact ht.sent (hv z) fun g h => nomatch h)
        (fun ho => by rw [hx] at ho; exact ⟨ho.1, ht.connClosed (hv z) ho.2⟩)
        (by rw [hx]; exact ht.writeFailed (hv z) fun g ok h => nomatch h)
        fun hg => by rw [hx]; exact ht.writing (hv z) (fun g ok h => nomatch h) hg
    · exact h.got (hv x.other) hr hs
  | @recvErr z s hs =>
    exact h.run (hv z) hs (fun g h => nomatch h) (fun g ok h => nomatch h) fun f h => nomatch h
  | @cut z =>
    rcases Side.eq_or_eq_other x z with rfl | rfl
    · have hx : p.put z { p z with cut := true } z = { p z with cut := true } := Pair.put_self _
      have hy : p.put z { p z with cut := true } z.other = p z.other := Pair.put_other _
      exact h.congr (by rw [hx]) (by rw [hx]) (by rw [hx]) (by rw [hy]) (by rw [hy]) (by rw [hx])
        (fun ho => by rw [hx] at ho; exact nomatch ho.1) (by rw [hx]) fun hg => by rwa [hx]
    · exact h.atOther rfl rfl

end Carried

end Hawal.Mux
