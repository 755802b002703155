import Hawal.Lib.Run
import Hawal.Panel.WsFrames
import Mathlib.Data.List.Nodup
import Mathlib.Data.List.Perm.Basic
import Mathlib.Logic.Function.Basic

/-!
# Broadcasts to the dashboards

`broadcast_ws` goes through a copy of `CONNECTED_WS_CLIENTS` and writes its frame to one client after the other. At
each `drain` other coroutines may go on: other broadcasts, clients that join in `handle_ws_dashboard`, and clients
that leave it. Here every action is a step of its own, so that all these orders are runs.

* `World.step` — the step function.
* `received_whole` — a client gets whole frames, of broadcasts that began when it was connected, and no broadcast
  twice.
* `broadcast_reaches` — when a broadcast is over, each client of its copy has got it or is no longer connected.
-/

namespace Hawal.Panel.Broadcast

open Hawal.Lib Hawal.Panel.WsFrames

/-- A client that asked for an upgrade. -/
structure Client where
  /-- The answer to its handshake, when it was written. -/
  response : Option (List UInt8) := none
  /-- `handle_ws_dashboard` was entered. -/
  joined : Bool := false
  /-- What was passed to `writer.write`. -/
  sent : List UInt8 := []
  /-- The broadcasts whose frames are in it. -/
  got : List (ℕ × Message) := []

/-- An execution of `broadcast_ws`. -/
structure Task where
  message : Message
  /-- `list(CONNECTED_WS_CLIENTS)`. -/
  copy : List ℕ
  /-- The clients that the loop has not come to. -/
  todo : List ℕ
  /-- The client whose `drain` is awaited. -/
  awaits : Option ℕ := none
  dead : List ℕ := []
  /-- It has returned. -/
  finished : Bool

/-- The panel and its dashboards. -/
structure World where
  /-- `CONNECTED_WS_CLIENTS`. -/
  connected : List ℕ
  clients : ℕ → Client
  /-- The broadcasts so far. -/
  tasks : List Task

/-- Nobody is connected. -/
def World.start : World := ⟨[], fun _ => {}, []⟩

/-- The steps. -/
inductive Event where
  /-- The answer to the handshake of a client is written. -/
  | upgrade (w : ℕ) (response : List UInt8)
  /-- `handle_ws_dashboard` is entered. -/
  | join (w : ℕ)
  /-- It is left. -/
  | leave (w : ℕ)
  /-- `broadcast_ws` is called; a set is listed in any order. -/
  | broadcast (m : Message) (copy : List ℕ)
  /-- `writer.write` in the broadcast `b` returns or raises. -/
  | write (b : ℕ) (ok : Bool)
  /-- `writer.drain` in the broadcast `b` does. -/
  | drain (b : ℕ) (ok : Bool)
  /-- The loop of the broadcast `b` is over, and the second one is run. -/
  | discard (b : ℕ)

namespace World

/-- Of the client `w`. -/
def setClient (s : World) (w : ℕ) (c : Client) : World := { s with clients := Function.update s.clients w c }

/-- Of the broadcast `b`. -/
def setTask (s : World) (b : ℕ) (t : Task) : World := { s with tasks := s.tasks.set b t }

/-- **The step function.** -/
def step (s : World) : Event → Option World
  | .upgrade w response =>
    if (s.clients w).response.isSome then none
    else some (s.setClient w { s.clients w with response := some response, sent := response })
  | .join w =>
    if (s.clients w).response.isSome = true ∧ (s.clients w).joined = false then
      some { s.setClient w { s.clients w with joined := true } with connected := s.connected ++ [w] }
    else none
  | .leave w => some { s with connected := s.connected.filter (· ≠ w) }
  | .broadcast m copy =>
    if copy.Perm s.connected then some { s with tasks := s.tasks ++ [⟨m, copy, copy, none, [], copy.isEmpty⟩] }
    else none
  | .write b ok =>
    match s.tasks[b]? with
    | none => none
    | some t =>
      match t.awaits, t.todo with
      | none, w :: todo =>
        if ok then
          let c := s.clients w
          some ((s.setClient w { c with sent := c.sent ++ t.message.bytes, got := c.got ++ [(b, t.message)] }).setTask b
            { t with todo := todo, awaits := some w })
        else some (s.setTask b { t with todo := todo, dead := t.dead ++ [w] })
      | _, _ => none
  | .drain b ok =>
    match s.tasks[b]? with
    | none => none
    | some t =>
      match t.awaits with
      | none => none
      | some w => some (s.setTask b { t with awaits := none, dead := if ok then t.dead else t.dead ++ [w] })
  | .discard b =>
    match s.tasks[b]? with
    | none => none
    | some t =>
      if t.awaits = none ∧ t.todo = [] ∧ t.finished = false then
        some { s.setTask b { t with finished := true } with connected := s.connected.filter (· ∉ t.dead) }
      else none

/-- **What a step can do.** -/
inductive Trans (s : World) : Event → World → Prop
  | upgrade {w response} (hnew : (s.clients w).response = none) : Trans s (.upgrade w response)
      (s.setClient w { s.clients w with response := some response, sent := response })
  | join {w} (hasked : (s.clients w).response ≠ none) (hnew : (s.clients w).joined = false) : Trans s (.join w)
      { s.setClient w { s.clients w with joined := true } with connected := s.connected ++ [w] }
  | leave {w} : Trans s (.leave w) { s with connected := s.connected.filter (· ≠ w) }
  | broadcast {m copy} (hcopy : copy.Perm s.connected) : Trans s (.broadcast m copy)
      { s with tasks := s.tasks ++ [⟨m, copy, copy, none, [], copy.isEmpty⟩] }
  | write {b t w todo} (ht : s.tasks[b]? = some t) (hawaits : t.awaits = none) (htodo : t.todo = w :: todo) :
      Trans s (.write b true)
      ((s.setClient w { s.clients w with
          sent := (s.clients w).sent ++ t.message.bytes, got := (s.clients w).got ++ [(b, t.message)] }).setTask b
        { t with todo := todo, awaits := some w })
  | writeRaises {b t w todo} (ht : s.tasks[b]? = some t) (hawaits : t.awaits = none) (htodo : t.todo = w :: todo) :
      Trans s (.write b false) (s.setTask b { t with todo := todo, dead := t.dead ++ [w] })
  | drain {b t w} (ht : s.tasks[b]? = some t) (hawaits : t.awaits = some w) :
      Trans s (.drain b true) (s.setTask b { t with awaits := none })
  | drainRaises {b t w} (ht : s.tasks[b]? = some t) (hawaits : t.awaits = some w) :
      Trans s (.drain b false) (s.setTask b { t with awaits := none, dead := t.dead ++ [w] })
  | discard {b t} (ht : s.tasks[b]? = some t) (hawaits : t.awaits = none) (htodo : t.todo = []) :
      Trans s (.discard b)
      { s.setTask b { t with finished := true } with connected := s.connected.filter (· ∉ t.dead) }

theorem trans_of_step {s s' : World} {e : Event} (h : s.step e = some s') : s.Trans e s' := by
  cases e with
  | upgrade w response =>
    simp only [step] at h
    split at h
    · cases h
    · cases h
      exact .upgrade (by simp_all)
  | join w =>
    simp only [step] at h
    split at h
    · rename_i hcan
      cases h
      exact .join (Option.isSome_iff_ne_none.mp hcan.1) hcan.2
    · cases h
  | leave w =>
    cases h
    exact .leave
  | broadcast m copy =>
    simp only [step] at h
    split at h
    · rename_i hcopy
      cases h
      exact .broadcast hcopy
    · cases h
  | write b ok =>
    simp only [step] at h
    split at h
    · cases h
    rename_i t ht
    split at h
    · rename_i w todo hawaits htodo
      cases ok with
      | true =>
        cases h
        exact .write ht hawaits htodo
      | false =>
        cases h
        exact .writeRaises ht hawaits htodo
    · cases h
  | drain b ok =>
    simp only [step] at h
    split at h
    · cases h
    rename_i t ht
    split at h
    · cases h
    rename_i w hawaits
    cases ok with
    | true =>
      cases h
      exact .drain ht hawaits
    | false =>
      cases h
      exact .drainRaises ht hawaits
  | discard b =>
    simp only [step] at h
    split at h
    · cases h
    rename_i t ht
    split at h
    · rename_i hcan
      cases h
      exact .discard ht hcan.1 hcan.2.1
    · cases h

/-! ### Invariants -/

variable {s s' : World} {b : ℕ} {t t' : Task} {e : Event}

/-- What a broadcast has done for the clients of its copy. -/
structure TaskOk (s : World) (b : ℕ) (t : Task) : Prop where
  nodup : t.copy.Nodup
  todo : t.todo <:+ t.copy
  joined : ∀ w ∈ t.copy, (s.clients w).joined = true
  awaits : ∀ w, t.awaits = some w → w ∈ t.copy
  dead : ∀ w ∈ t.dead, w ∈ t.copy
  done : ∀ w ∈ t.copy, w ∈ t.todo ∨ w ∈ t.dead ∨ (b, t.message) ∈ (s.clients w).got
  finished : t.finished = true → t.awaits = none ∧ t.todo = [] ∧ ∀ w ∈ t.dead, w ∉ s.connected

/-- The invariant. -/
structure Sane (s : World) : Prop where
  nodup : s.connected.Nodup
  joined : ∀ w ∈ s.connected, (s.clients w).joined = true
  idle : ∀ w, (s.clients w).response = none → (s.clients w).joined = false ∧ (s.clients w).got = []
  sent : ∀ w, (s.clients w).sent = (s.clients w).response.getD [] ++ framing.puts ((s.clients w).got.map Prod.snd)
  once : ∀ w, ((s.clients w).got.map Prod.fst).Nodup
  got : ∀ w, ∀ g ∈ (s.clients w).got, ∃ t, s.tasks[g.1]? = some t ∧ t.message = g.2 ∧ w ∈ t.copy ∧ w ∉ t.todo
  tasks : ∀ b t, s.tasks[b]? = some t → s.TaskOk b t

/-- Nobody joins twice, and what was written stays so. -/
structure Later (s s' : World) : Prop where
  joined : ∀ w, (s.clients w).joined = true → (s'.clients w).joined = true
  got : ∀ w, (s.clients w).got ⊆ (s'.clients w).got
  connected : ∀ w, (s.clients w).joined = true → w ∈ s'.connected → w ∈ s.connected

theorem TaskOk.later (h : s.TaskOk b t) (hlater : s.Later s') : s'.TaskOk b t where
  nodup := h.nodup
  todo := h.todo
  joined := fun w hw => hlater.joined w (h.joined w hw)
  awaits := h.awaits
  dead := h.dead
  done := fun w hw => (h.done w hw).imp_right fun hdone => hdone.imp_right fun hgot => hlater.got w hgot
  finished := fun hfinished => ⟨(h.finished hfinished).1, (h.finished hfinished).2.1, fun w hw hconnected =>
    (h.finished hfinished).2.2 w hw (hlater.connected w (h.joined w (h.dead w hw)) hconnected)⟩

theorem sane_start : start.Sane where
  nodup := List.nodup_nil
  joined := List.forall_mem_nil _
  idle := fun _ _ => ⟨rfl, rfl⟩
  sent := fun _ => rfl
  once := fun _ => List.nodup_nil
  got := fun _ g hg => nomatch hg
  tasks := fun b t ht => by simp [start] at ht

/-- A broadcast goes on, and some clients are not connected any more. -/
theorem Sane.goOn (h : s.Sane) (t' : Task) (ht : s.tasks[b]? = some t) (hmessage : t'.message = t.message)
    (hcopy : t'.copy = t.copy)
    (htodo : t'.todo ⊆ t.todo) {connected : List ℕ} (hconnected : connected.Sublist s.connected)
    (hok : ∀ s', s.Later s' → s'.connected = connected → s'.TaskOk b t') :
    Sane { s.setTask b t' with connected := connected } := by
  have hlater : s.Later { s.setTask b t' with connected := connected } :=
    ⟨fun _ hw => hw, fun _ => List.Subset.refl _, fun _ _ hw => hconnected.subset hw⟩
  refine ⟨h.nodup.sublist hconnected, fun w hw => h.joined w (hconnected.subset hw), h.idle, h.sent, h.once, ?_, ?_⟩
  · intro w g hg
    obtain ⟨u, hu, hm, hc, hnot⟩ := h.got w g hg
    by_cases hb : b = g.1
    · subst hb
      rw [ht, Option.some.injEq] at hu
      subst hu
      refine ⟨t', ?_, hmessage.trans hm, hcopy ▸ hc, fun hw => hnot (htodo hw)⟩
      simp [setTask, (List.getElem?_eq_some_iff.mp ht).1]
    · exact ⟨u, by simp [setTask, List.getElem?_set_ne hb, hu], hm, hc, hnot⟩
  · intro b' u hu
    by_cases hb : b = b'
    · subst hb
      simp only [setTask, List.getElem?_set_self (List.getElem?_eq_some_iff.mp ht).1, Option.some.injEq] at hu
      exact hu ▸ hok _ hlater rfl
    · simp only [setTask, List.getElem?_set_ne hb] at hu
      exact (h.tasks b' u hu).later hlater

/-- Another state of one client. -/
theorem Sane.client (h : s.Sane) {w : ℕ} {c : Client} (hjoined : (s.clients w).joined = true → c.joined = true)
    (hidle : c.response = none → c.joined = false ∧ c.got = [])
    (hsent : c.sent = c.response.getD [] ++ framing.puts (c.got.map Prod.snd))
    (hgot : c.got = (s.clients w).got) : Sane (s.setClient w c) := by
  have hlater : s.Later (s.setClient w c) := by
    refine ⟨fun v hv => ?_, fun v => ?_, fun _ _ hv => hv⟩
    · by_cases hvw : v = w
      · subst hvw
        simpa [setClient] using hjoined hv
      · simpa [setClient, hvw] using hv
    · by_cases hvw : v = w
      · subst hvw
        simp [setClient, hgot]
      · simp [setClient, hvw]
  have hgots : ∀ v, ((s.setClient w c).clients v).got = (s.clients v).got := by
    intro v
    by_cases hvw : v = w
    · subst hvw
      simp [setClient, hgot]
    · simp [setClient, hvw]
  refine ⟨h.nodup, fun v hv => hlater.joined v (h.joined v hv), fun v hv => ?_, fun v => ?_, fun v => ?_,
    fun v g hg => ?_,
    fun b t ht => (h.tasks b t ht).later hlater⟩
  · by_cases hvw : v = w
    · subst hvw
      simp only [setClient, Function.update_self] at hv ⊢
      exact hidle hv
    · simp only [setClient, Function.update_of_ne hvw] at hv ⊢
      exact h.idle v hv
  · by_cases hvw : v = w
    · subst hvw
      simpa [setClient] using hsent
    · simpa [setClient, hvw] using h.sent v
  · rw [hgots]
    exact h.once v
  · rw [hgots] at hg
    exact h.got v g hg

theorem Sane.join (h : s.Sane) {w : ℕ} (hasked : (s.clients w).response ≠ none) (hnew : (s.clients w).joined = false) :
    Sane { s.setClient w { s.clients w with joined := true } with connected := s.connected ++ [w] } := by
  have hclient : Sane (s.setClient w { s.clients w with joined := true }) :=
    h.client (fun _ => rfl) (fun hresponse => absurd hresponse hasked) (h.sent w) rfl
  have hfresh : w ∉ s.connected := fun hw => by rw [h.joined w hw] at hnew; cases hnew
  have hlater : s.Later { s.setClient w { s.clients w with joined := true } with connected := s.connected ++ [w] } := by
    refine ⟨fun v hv => ?_, fun v => ?_, fun v hv hconnected => ?_⟩
    · by_cases hvw : v = w <;> simp [setClient, hvw, hv]
    · by_cases hvw : v = w <;> simp [setClient, hvw]
    · rcases List.mem_append.mp hconnected with hconnected | hconnected
      · exact hconnected
      · rw [List.mem_singleton.mp hconnected, hnew] at hv
        cases hv
  refine ⟨List.Nodup.append h.nodup (List.nodup_singleton w) (List.disjoint_singleton.mpr hfresh), fun v hv => ?_,
    hclient.idle,
    hclient.sent, hclient.once, hclient.got, fun b t ht => (h.tasks b t ht).later hlater⟩
  rcases List.mem_append.mp hv with hv | hv
  · exact hlater.joined v (h.joined v hv)
  · rw [List.mem_singleton.mp hv]
    simp [setClient]

/-- The frame of a broadcast is written to a client that its loop comes to. -/
theorem Sane.write (h : s.Sane) (ht : s.tasks[b]? = some t) {w : ℕ} {todo : List ℕ} (htodo : t.todo = w :: todo)
    (hfinished : t.finished = false) :
    Sane ((s.setClient w { s.clients w with
      sent := (s.clients w).sent ++ t.message.bytes, got := (s.clients w).got ++ [(b, t.message)] }).setTask b
      { t with todo := todo, awaits := some w }) := by
  have hb := (List.getElem?_eq_some_iff.mp ht).1
  have hok := h.tasks b t ht
  have hcopy : w ∈ t.copy := hok.todo.subset (htodo ▸ List.mem_cons_self)
  have hnodup : (w :: todo).Nodup := htodo ▸ hok.nodup.sublist hok.todo.sublist
  have hfirst : b ∉ (s.clients w).got.map Prod.fst := by
    intro hmem
    obtain ⟨g, hg, rfl⟩ := List.mem_map.mp hmem
    obtain ⟨u, hu, -, -, hnot⟩ := h.got w g hg
    rw [ht, Option.some.injEq] at hu
    exact hnot (hu ▸ htodo ▸ List.mem_cons_self)
  have hother : ∀ {v}, v ≠ w → (s.setClient w { s.clients w with
      sent := (s.clients w).sent ++ t.message.bytes, got := (s.clients w).got ++ [(b, t.message)] }).clients v =
      s.clients v := fun hvw => Function.update_of_ne hvw _ _
  have hlater : s.Later ((s.setClient w { s.clients w with
      sent := (s.clients w).sent ++ t.message.bytes, got := (s.clients w).got ++ [(b, t.message)] }).setTask b
      { t with todo := todo, awaits := some w }) := by
    refine ⟨fun v hv => ?_, fun v => ?_, fun _ _ hv => hv⟩
    · by_cases hvw : v = w <;> simp_all [setTask, setClient]
    · by_cases hvw : v = w <;> simp [setTask, setClient, hvw]
  refine ⟨h.nodup, fun v hv => hlater.joined v (h.joined v hv), fun v hv => ?_, fun v => ?_, fun v => ?_,
    fun v g hg => ?_, fun b' u hu => ?_⟩
  · by_cases hvw : v = w
    · subst hvw
      simp only [setTask, setClient, Function.update_self] at hv
      have hjoined := hok.joined v hcopy
      rw [(h.idle v hv).1] at hjoined
      cases hjoined
    · simp only [setTask, hother hvw] at hv ⊢
      exact h.idle v hv
  · by_cases hvw : v = w
    · subst hvw
      simp [setTask, setClient, h.sent v, framing]
    · simpa only [setTask, hother hvw] using h.sent v
  · by_cases hvw : v = w
    · subst hvw
      simp only [setTask, setClient, Function.update_self, List.map_append, List.map_cons, List.map_nil]
      exact List.Nodup.append (h.once v) (List.nodup_singleton b) (List.disjoint_singleton.mpr hfirst)
    · simpa only [setTask, hother hvw] using h.once v
  · have hold : ∀ g ∈ (s.clients v).got, ∃ u, (s.tasks.set b { t with todo := todo, awaits := some w })[g.1]? = some u ∧
        u.message = g.2 ∧ v ∈ u.copy ∧ v ∉ u.todo := by
      intro g hg
      obtain ⟨u, hu, hm, hc, hnot⟩ := h.got v g hg
      by_cases hbg : b = g.1
      · subst hbg
        rw [ht, Option.some.injEq] at hu
        subst hu
        exact ⟨_, List.getElem?_set_self hb, hm, hc, fun hv => hnot (htodo ▸ List.mem_cons_of_mem w hv)⟩
      · exact ⟨u, by rw [List.getElem?_set_ne hbg, hu], hm, hc, hnot⟩
    by_cases hvw : v = w
    · subst hvw
      simp only [setTask, setClient, Function.update_self, List.mem_append, List.mem_singleton] at hg
      rcases hg with hg | rfl
      · exact hold g hg
      · exact ⟨_, List.getElem?_set_self hb, rfl, hcopy, (List.nodup_cons.mp hnodup).1⟩
    · simp only [setTask, hother hvw] at hg
      exact hold g hg
  · by_cases hbb : b = b'
    · subst hbb
      simp only [setTask, List.getElem?_set_self (show b < (s.setClient w _).tasks.length from hb),
        Option.some.injEq] at hu
      subst hu
      have hafter := hok.later hlater
      refine ⟨hok.nodup, (List.suffix_cons w todo).trans (htodo ▸ hok.todo), hafter.joined, ?_, hok.dead, ?_, ?_⟩
      · intro v hv
        cases hv
        exact hcopy
      · intro v hv
        by_cases hvw : v = w
        · subst hvw
          exact .inr (.inr (by simp [setTask, setClient]))
        · rcases hafter.done v hv with hv | hv | hv
          · rw [htodo] at hv
            exact .inl (List.mem_of_ne_of_mem hvw hv)
          · exact .inr (.inl hv)
          · exact .inr (.inr hv)
      · intro hyes
        rw [hfinished] at hyes
        cases hyes
    · simp only [setTask, List.getElem?_set_ne hbb] at hu
      exact (h.tasks b' u hu).later hlater

theorem Sane.without (h : s.Sane) {connected : List ℕ} (hconnected : connected.Sublist s.connected) :
    Sane { s with connected := connected } where
  nodup := h.nodup.sublist hconnected
  joined := fun w hw => h.joined w (hconnected.subset hw)
  idle := h.idle
  sent := h.sent
  once := h.once
  got := h.got
  tasks := fun b t ht => (h.tasks b t ht).later
    ⟨fun _ hw => hw, fun _ => List.Subset.refl _, fun _ _ hw => hconnected.subset hw⟩

theorem Sane.broadcast (h : s.Sane) (m : Message) {copy : List ℕ} (hcopy : copy.Perm s.connected) :
    Sane { s with tasks := s.tasks ++ [⟨m, copy, copy, none, [], copy.isEmpty⟩] } := by
  refine ⟨h.nodup, h.joined, h.idle, h.sent, h.once, fun w g hg => ?_, fun b t ht => ?_⟩
  · obtain ⟨t, ht, hrest⟩ := h.got w g hg
    exact ⟨t, by rw [List.getElem?_append_left (List.getElem?_eq_some_iff.mp ht).1, ht], hrest⟩
  · rcases Nat.lt_or_ge b s.tasks.length with hb | hb
    · rw [List.getElem?_append_left hb] at ht
      exact (h.tasks b t ht).later ⟨fun _ hw => hw, fun _ => List.Subset.refl _, fun _ _ hw => hw⟩
    · rw [List.getElem?_append_right hb, List.getElem?_singleton] at ht
      split at ht
      · cases ht
        refine ⟨hcopy.nodup_iff.mpr h.nodup, List.suffix_rfl, fun w hw => h.joined w (hcopy.subset hw),
          (fun w hw => nomatch hw), List.forall_mem_nil _, fun w hw => .inl hw, fun hfinished => ?_⟩
        exact ⟨rfl, List.isEmpty_iff.mp hfinished, List.forall_mem_nil _⟩
      · cases ht

theorem sane_step (h : s.Sane) (hstep : s.step e = some s') : s'.Sane := by
  cases trans_of_step hstep with
  | @upgrade w response hnew =>
    refine h.client id (fun hnone => nomatch hnone) ?_ rfl
    simp [(h.idle w hnew).2]
  | join hasked hnew => exact h.join hasked hnew
  | leave => exact h.without List.filter_sublist
  | @broadcast m copy hcopy => exact h.broadcast m hcopy
  | @write b t w todo ht hawaits htodo =>
    refine h.write ht htodo (Bool.eq_false_iff.mpr fun hfinished => ?_)
    rw [((h.tasks b t ht).finished hfinished).2.1] at htodo
    cases htodo
  | @writeRaises b t w todo ht hawaits htodo =>
    have hok := h.tasks b t ht
    have hw : w ∈ t.copy := hok.todo.subset (htodo ▸ List.mem_cons_self)
    refine h.goOn { t with todo := todo, dead := t.dead ++ [w] } ht rfl rfl (htodo ▸ List.subset_cons_self w todo)
      (List.Sublist.refl _) fun s' hlater _ => ?_
    have hafter := hok.later hlater
    refine ⟨hok.nodup, (List.suffix_cons w todo).trans (htodo ▸ hok.todo), hafter.joined, hok.awaits, ?_, ?_, ?_⟩
    · exact List.forall_mem_append.mpr ⟨hok.dead, List.forall_mem_singleton.mpr hw⟩
    · intro v hv
      rcases hafter.done v hv with hv | hv | hv
      · rw [htodo, List.mem_cons] at hv
        rcases hv with rfl | hv
        · exact .inr (.inl (List.mem_append_right _ (List.mem_singleton_self v)))
        · exact .inl hv
      · exact .inr (.inl (List.mem_append_left _ hv))
      · exact .inr (.inr hv)
    · intro hfinished
      rw [(hok.finished hfinished).2.1] at htodo
      cases htodo
  | @drain b t w ht hawaits =>
    have hok := h.tasks b t ht
    refine h.goOn { t with awaits := none } ht rfl rfl (List.Subset.refl _) (List.Sublist.refl _) fun s' hlater _ => ?_
    have hafter := hok.later hlater
    exact ⟨hok.nodup, hok.todo, hafter.joined, (fun v hv => nomatch hv), hok.dead, hafter.done,
      fun hfinished => ⟨rfl, (hafter.finished hfinished).2⟩⟩
  | @drainRaises b t w ht hawaits =>
    have hok := h.tasks b t ht
    refine h.goOn { t with awaits := none, dead := t.dead ++ [w] } ht rfl rfl (List.Subset.refl _)
      (List.Sublist.refl _) fun s' hlater _ => ?_
    have hafter := hok.later hlater
    refine ⟨hok.nodup, hok.todo, hafter.joined, (fun v hv => nomatch hv), ?_, fun v hv => ?_, fun hfinished => ?_⟩
    · exact List.forall_mem_append.mpr ⟨hok.dead, List.forall_mem_singleton.mpr (hok.awaits w hawaits)⟩
    · exact (hafter.done v hv).imp_right fun hdone => hdone.imp_left fun hdead => List.mem_append_left _ hdead
    · rw [(hok.finished hfinished).1] at hawaits
      cases hawaits
  | @discard b t ht hawaits htodo =>
    have hok := h.tasks b t ht
    refine h.goOn { t with finished := true } ht rfl rfl (List.Subset.refl _) List.filter_sublist
      fun s' hlater hconnected => ?_
    have hafter := hok.later hlater
    refine ⟨hok.nodup, hok.todo, hafter.joined, hok.awaits, hok.dead, hafter.done, fun _ => ⟨hawaits, htodo, ?_⟩⟩
    intro w hw hstays
    rw [hconnected, List.mem_filter] at hstays
    simp [hw] at hstays

/-! ### What a client gets -/

/-- **Whole frames**: whatever the order of the steps, what was written to a client after the answer to its handshake
are the frames of broadcasts that began when it was connected, none twice; and whatever part of it has come to the
client reads as the first of them, one after the other, and then as part of a frame at most. -/
theorem received_whole {es : List Event} (h : exec step start es = some s) (w : ℕ) :
    (s.clients w).sent = (s.clients w).response.getD [] ++ framing.puts ((s.clients w).got.map Prod.snd) ∧
      ((s.clients w).got.map Prod.fst).Nodup ∧
      (∀ g ∈ (s.clients w).got, ∃ t, s.tasks[g.1]? = some t ∧ t.message = g.2 ∧ w ∈ t.copy) ∧
      ∀ bs, bs <+: framing.puts ((s.clients w).got.map Prod.snd) → ∃ k rest,
        framing.readN k bs = .ok ((((s.clients w).got.map Prod.snd).take k).map Message.decoded, rest) ∧
          ∃ e, decodeWsFrame rest = .error e := by
  have hs : s.Sane := exec_inv (fun _ _ _ => sane_step) sane_start h
  refine ⟨hs.sent w, hs.once w, fun g hg => ?_, fun bs hbs => framing.readN_of_prefix (fun _ _ => trivial) hbs⟩
  obtain ⟨t, ht, hm, hc, -⟩ := hs.got w g hg
  exact ⟨t, ht, hm, hc⟩

/-- The broadcast keeps its message and its copy. -/
def Keeps (b : ℕ) (m : Message) (copy : List ℕ) (s : World) : Prop :=
  ∃ t, s.tasks[b]? = some t ∧ t.message = m ∧ t.copy = copy

variable {m : Message} {copy : List ℕ}

theorem Keeps.setTask (h : s.Keeps b m copy) {b' : ℕ} (ht : s.tasks[b']? = some t) (hs' : s'.tasks = s.tasks.set b' t')
    (hmessage : t'.message = t.message) (hcopy : t'.copy = t.copy) : s'.Keeps b m copy := by
  obtain ⟨u, hu, hm, hc⟩ := h
  by_cases hb : b' = b
  · subst hb
    rw [ht, Option.some.injEq] at hu
    subst hu
    exact ⟨t', by rw [hs', List.getElem?_set_self (List.getElem?_eq_some_iff.mp ht).1], hmessage.trans hm,
      hcopy.trans hc⟩
  · exact ⟨u, by rw [hs', List.getElem?_set_ne hb, hu], hm, hc⟩

theorem keeps_step (h : s.Keeps b m copy) (hstep : s.step e = some s') : s'.Keeps b m copy := by
  cases trans_of_step hstep with
  | upgrade hnew => exact h
  | join hasked hnew => exact h
  | leave => exact h
  | broadcast hcopy =>
    obtain ⟨t, ht, hrest⟩ := h
    exact ⟨t, by rw [List.getElem?_append_left (List.getElem?_eq_some_iff.mp ht).1, ht], hrest⟩
  | write ht hawaits htodo => exact h.setTask ht rfl rfl rfl
  | writeRaises ht hawaits htodo => exact h.setTask ht rfl rfl rfl
  | drain ht hawaits => exact h.setTask ht rfl rfl rfl
  | drainRaises ht hawaits => exact h.setTask ht rfl rfl rfl
  | discard ht hawaits htodo => exact h.setTask ht rfl rfl rfl

/-- **A broadcast reaches its clients**: only clients that are connected when it begins get it; and when it is over,
whatever happened in between, each of them has got it, or is no longer connected. -/
theorem broadcast_reaches {before after : List Event} {s₀ : World} (hbefore : exec step start before = some s₀)
    (hafter : exec step s₀ (.broadcast m copy :: after) = some s) :
    (∀ w, (s₀.tasks.length, m) ∈ (s.clients w).got → w ∈ s₀.connected) ∧
      ∃ t, s.tasks[s₀.tasks.length]? = some t ∧ (t.finished = true → ∀ w ∈ s₀.connected,
        (s₀.tasks.length, m) ∈ (s.clients w).got ∨ w ∉ s.connected) := by
  have hs₀ : s₀.Sane := exec_inv (fun _ _ _ => sane_step) sane_start hbefore
  have hs : s.Sane := exec_inv (fun _ _ _ => sane_step) hs₀ hafter
  obtain ⟨s₁, hstep, hrest⟩ := exec_cons_eq_some.mp hafter
  obtain ⟨hcopy, hkeeps⟩ : copy.Perm s₀.connected ∧ s₁.Keeps s₀.tasks.length m copy := by
    cases trans_of_step hstep with
    | broadcast hcopy =>
      exact ⟨hcopy, _, by rw [List.getElem?_append_right (Nat.le_refl _), Nat.sub_self]; rfl, rfl, rfl⟩
  obtain ⟨t, ht, rfl, rfl⟩ := exec_inv (fun _ _ _ => keeps_step) hkeeps hrest
  refine ⟨fun w hw => ?_, t, ht, fun hfinished w hw => ?_⟩
  · obtain ⟨u, hu, -, hwu, -⟩ := hs.got w _ hw
    rw [ht, Option.some.injEq] at hu
    exact hcopy.subset (hu ▸ hwu)
  · have hok := hs.tasks _ t ht
    rcases hok.done w (hcopy.symm.subset hw) with hdone | hdone | hdone
    · rw [(hok.finished hfinished).2.1] at hdone
      cases hdone
    · exact .inr ((hok.finished hfinished).2.2 w hdone)
    · exact .inl hdone

/-! ### Two clients and two broadcasts -/

/-- A short text message. -/
def exampleMessage (b : UInt8) : Message := ⟨⟨1, by decide⟩, [b], by simp⟩

/-- A client joins during a broadcast, and the other leaves during the next. -/
def exampleEvents : List Event :=
  [.upgrade 0 [72], .join 0, .upgrade 1 [72], .broadcast (exampleMessage 1) [0], .write 0 true, .join 1, .drain 0 true]

theorem example_received_whole : ∃ s, exec step start exampleEvents = some s ∧
    (s.clients 0).sent = [72] ++ framing.puts ((s.clients 0).got.map Prod.snd) := by
  obtain ⟨s, hs⟩ : ∃ s, exec step start exampleEvents = some s := ⟨_, rfl⟩
  refine ⟨s, hs, (received_whole hs 0).1.trans ?_⟩
  cases hs
  rfl

theorem example_broadcast_reaches : ∃ s₀ s, exec step start exampleEvents = some s₀ ∧
    exec step s₀ [.broadcast (exampleMessage 2) [1, 0], .write 1 true, .leave 0, .drain 1 true, .write 1 false,
      .discard 1] = some s ∧
    ∀ w ∈ s₀.connected, (s₀.tasks.length, exampleMessage 2) ∈ (s.clients w).got ∨ w ∉ s.connected := by
  obtain ⟨s₀, s, hs₀, hs, hfinished⟩ : ∃ s₀ s, exec step start exampleEvents = some s₀ ∧
      exec step s₀ [.broadcast (exampleMessage 2) [1, 0], .write 1 true, .leave 0, .drain 1 true, .write 1 false,
        .discard 1] = some s ∧ s.tasks[s₀.tasks.length]?.map Task.finished = some true := ⟨_, _, rfl, rfl, rfl⟩
  obtain ⟨-, t, ht, hreaches⟩ := broadcast_reaches hs₀ hs
  rw [ht] at hfinished
  exact ⟨s₀, s, hs₀, hs, hreaches (Option.some.inj hfinished)⟩

end World

end Hawal.Panel.Broadcast
