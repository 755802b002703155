import Hawal.Fleet.Contents
import Hawal.Panel.Halves
import Hawal.Panel.Malformed
import Mathlib.Logic.Function.Basic

/-!
# The panel and its agents together

A run of the panel and of all agents: requests to the panel, syncs that are answered and applied while the machine
of the agent does as it can, syncs that fail, processes that end by themselves, and agents that shut down. The
answers go over the wire as text. An agent that is asked to restart shuts down after its sync, and its service starts
it again. Each token has a machine of its own, which is not enrolled again under another.

* `fleet_converges` — when no more requests come and the machines do what they are asked for, then after each agent
  has synced once, or twice when it is still to restart, in any order and as often as they like, each runs exactly the
  tunnels that end at its node, from what the rows say, and more syncs change nothing.
* `fleet_carries` — each running tunnel between two nodes is then carried by two processes, one for each half, which
  fit together when the strings of the tunnel are plain, and no other agent runs it.
-/

namespace Hawal.Fleet

open Hawal.Lib Hawal.Lib.Python Hawal.Panel Hawal.Agent

variable (repr : Json → Str) (R : FloatReader)

/-- The panel's database, and for each token the agent that has it, with the nonce that it knows and that is in its
nonce file. -/
structure System where
  db : Db
  agents : Text → HawalAgent
  nonces : Text → ℤ

/-- Before anything has happened. -/
def System.start : System := ⟨Db.empty, fun _ => HawalAgent.start, fun _ => 0⟩

/-- What can happen next. -/
inductive Step where
  /-- The panel serves a request. -/
  | request (r : Request)
  /-- An agent syncs; what its machine does for each tunnel, and how `iptables` answers for tunnels that are
  removed, and when the agent then restarts. -/
  | sync (token : Text) (machine : Str → Outcome) (deletes stops : Str → Deletes)
  /-- A sync is not answered, or the answer is lost. -/
  | fail (token : Text)
  /-- A process ends by itself. -/
  | died (token : Text) (pid : ℕ)
  /-- An agent ends, and its service starts it again. -/
  | shutdown (token : Text) (deletes : Str → Deletes)

/-- The items of an answer, with what the machine does for them. -/
def answered (machine : Str → Outcome) (items : List Item) : List (Item × Outcome) :=
  items.map fun i => (i, machine i.tunnelId)

/-- What an agent does with the items of an answer, and with the nonce in it. When that is greater than the one it
knows, and nothing was raised, the loop of `run` ends and stops all processes, and the service starts the agent
again. -/
def handled (nonce requestedNonce : ℤ) (s : HawalAgent) (items : List (Item × Outcome)) (deletes stops : Str → Deletes) :
    HawalAgent × ℤ :=
  let applied := applyConfigs dumpsCommand s (given items) deletes
  if (applyItems dumpsCommand s (given items)).2 = true ∧ requestedNonce > nonce then
    (stopAll stops applied applied.processes.keys, requestedNonce)
  else (applied, nonce)

/-- `sync_tunnels`, with the nonce that the agent knows. -/
def syncAgent (db : Db) (token : Text) (s : HawalAgent) (nonce : ℤ) (machine : Str → Outcome)
    (deletes stops : Str → Deletes) : HawalAgent × ℤ :=
  match syncText repr db token with
  | .error _ => (s, nonce)
  | .ok answer =>
    match readAnswer R answer with
    | none => (s, nonce)
    | some (items, requestedNonce) => handled nonce requestedNonce s (answered machine items) deletes stops

/-- The agent with the token has become `s`, and knows the nonce. -/
def System.setAgent (f : System) (token : Text) (s : HawalAgent × ℤ) : System :=
  { f with agents := Function.update f.agents token s.1, nonces := Function.update f.nonces token s.2 }

/-- One step. -/
def fleetStep (f : System) : Step → Option System
  | .request r => (serve f.db r).map fun db => { f with db := db }
  | .sync token machine deletes stops =>
    some (f.setAgent token (syncAgent repr R f.db token (f.agents token) (f.nonces token) machine deletes stops))
  | .fail _ => some f
  | .died token pid => some (f.setAgent token ((f.agents token).kill pid, f.nonces token))
  | .shutdown token deletes =>
    some (f.setAgent token (stopAll deletes (f.agents token) (f.agents token).processes.keys, f.nonces token))

variable {repr R} {f f' : System}

@[simp] theorem agents_setAgent_self (token : Text) (s : HawalAgent × ℤ) : (f.setAgent token s).agents token = s.1 :=
  Function.update_self ..

@[simp] theorem nonces_setAgent_self (token : Text) (s : HawalAgent × ℤ) : (f.setAgent token s).nonces token = s.2 :=
  Function.update_self ..

theorem agents_setAgent_of_ne {token token' : Text} (h : token' ≠ token) (s : HawalAgent × ℤ) :
    (f.setAgent token s).agents token' = f.agents token' := Function.update_of_ne h ..

theorem nonces_setAgent_of_ne {token token' : Text} (h : token' ≠ token) (s : HawalAgent × ℤ) :
    (f.setAgent token s).nonces token' = f.nonces token' := Function.update_of_ne h ..

/-! ### What holds of every run -/

/-- The agent's dictionaries fit, and its processes were started from contents for their cores. -/
structure Sane (s : HawalAgent) : Prop where
  tidy : Tidy s
  marked : ∀ l ∈ s.launches, Marked l

theorem sane_start : Sane HawalAgent.start := ⟨tidy_start, List.forall_mem_nil _⟩

/-- The panel can tell all it has, and the agents are sane, after at most so many requests. -/
structure System.Ok (R : FloatReader) (k : ℕ) (f : System) : Prop where
  clean : f.db.Clean R
  counted : f.db.Counted k
  sane : ∀ token, Sane (f.agents token)

theorem ok_start : System.start.Ok R 0 := ⟨clean_empty, counted_empty, fun _ => sane_start⟩

/-- A request to the panel was received. -/
def Step.Received (R : FloatReader) : Step → Prop
  | .request r => r.Received R
  | _ => True

/-- What an agent is answered. -/
theorem syncAgent_eq (hrepr : ReprPrints repr) {k : ℕ} (hk : k < 2 ^ 63) (hok : f.Ok R k) (token : Text)
    (s : HawalAgent) (nonce : ℤ) (machine : Str → Outcome) (deletes stops : Str → Deletes) :
    (∀ n ∈ f.db.nodes, n.token ≠ token ∨ syncConfigs repr f.db n f.db.listTunnels = none) ∧
        syncAgent repr R f.db token s nonce machine deletes stops = (s, nonce) ∨
      ∃ n ∈ f.db.nodes, n.token = token ∧ ∃ es, syncConfigs repr f.db n f.db.listTunnels = some es ∧
        syncAgent repr R f.db token s nonce machine deletes stops =
          handled nonce n.agentRestartNonce s (answered machine (es.map itemOf)) deletes stops := by
  cases hanswer : agentSync repr f.db token with
  | error e =>
    refine .inl ⟨fun n hn => ?_, ?_⟩
    · by_contra hno
      rw [not_or, not_not] at hno
      obtain ⟨rfl, hes⟩ := hno
      obtain ⟨es, hes⟩ := Option.ne_none_iff_exists'.mp hes
      rw [(agentSync_eq_ok repr hn).mpr ⟨hes, rfl⟩] at hanswer
      cases hanswer
    · have htext : syncText repr f.db token = .error e := by
        rw [syncText, hanswer]
        rfl
      rw [syncAgent, htext]
  | ok answer =>
    obtain ⟨es, requestedNonce⟩ := answer
    obtain ⟨n, hn, htoken, rfl, hes⟩ := agentSync_cases hanswer
    refine .inr ⟨n, hn, htoken, es, hes, ?_⟩
    rw [syncAgent, syncText_eq_ok hanswer]
    simp only [readAnswer_text (clean_syncAnswer hrepr hok.clean hk hok.counted hanswer)]

/-- What an answer offers is marked. -/
theorem marked_answered {db : Db} {n : Node} {es : List Panel.Entry}
    (hes : syncConfigs repr db n db.listTunnels = some es)
    (machine : Str → Outcome) : ∀ l ∈ offersOf dumpsCommand (given (answered machine (es.map itemOf))), Marked l := by
  intro l hl
  obtain ⟨io, hio, hoffer⟩ := List.mem_filterMap.mp hl
  obtain ⟨io', hio', rfl⟩ := List.mem_map.mp hio
  obtain ⟨i, hi, rfl⟩ := List.mem_map.mp hio'
  obtain ⟨e, he, rfl⟩ := List.mem_map.mp hi
  obtain ⟨t, -, hentry⟩ := mem_syncConfigs repr hes e he
  exact marked_offer (proper_syncEntry hentry) hoffer

theorem Sane.step {s s' : HawalAgent} (h : Sane s) {e : Event} (hstep : agentStep dumpsCommand s e = some s')
    (hoffers : ∀ l ∈ e.offers dumpsCommand, Marked l) : Sane s' := by
  obtain ⟨htidy, horigin⟩ := agentStep_tidy dumpsCommand hstep h.tidy
  refine ⟨htidy, fun l hl => ?_⟩
  rcases horigin l hl with hl | hl
  · exact h.marked l hl
  · exact hoffers l hl

theorem Sane.handled {s : HawalAgent} (h : Sane s) {items : List (Item × Outcome)} (nonce requestedNonce : ℤ)
    (deletes stops : Str → Deletes) (hoffers : ∀ l ∈ offersOf dumpsCommand (given items), Marked l) :
    Sane (handled nonce requestedNonce s items deletes stops).1 := by
  have happlied : Sane (applyConfigs dumpsCommand s (given items) deletes) :=
    h.step (e := .apply (given items) deletes) rfl hoffers
  unfold Fleet.handled
  dsimp only
  split
  · exact happlied.step (e := .shutdown stops) rfl (List.forall_mem_nil _)
  · exact happlied

theorem sane_syncAgent (hrepr : ReprPrints repr) {k : ℕ} (hk : k < 2 ^ 63) (hok : f.Ok R k) (token : Text)
    (machine : Str → Outcome) (deletes stops : Str → Deletes) :
    Sane (syncAgent repr R f.db token (f.agents token) (f.nonces token) machine deletes stops).1 := by
  rcases syncAgent_eq hrepr hk hok token (f.agents token) (f.nonces token) machine deletes stops with
    ⟨-, heq⟩ | ⟨n, -, -, es, hes, heq⟩
  · rw [heq]
    exact hok.sane token
  · rw [heq]
    exact (hok.sane token).handled _ _ _ _ (marked_answered hes machine)

theorem System.Ok.setAgent {k : ℕ} (h : f.Ok R k) {token : Text} {s : HawalAgent × ℤ} (hs : Sane s.1) :
    (f.setAgent token s).Ok R k := by
  refine ⟨h.clean, h.counted, fun token' => ?_⟩
  by_cases hne : token' = token
  · rw [hne, agents_setAgent_self]
    exact hs
  · rw [agents_setAgent_of_ne hne]
    exact h.sane token'

theorem System.Ok.mono {k : ℕ} (h : f.Ok R k) : f.Ok R (k + 1) := by
  refine ⟨h.clean, ⟨fun t ht => ?_, fun n hn => ?_⟩, h.sane⟩
  · have := h.counted.tunnels t ht
    omega
  · have := h.counted.nodes n hn
    omega

theorem ok_fleetStep (hR : FloatPrints R) (hrepr : ReprPrints repr) {k : ℕ} (hk : k < 2 ^ 63) (h : f.Ok R k) {a : Step}
    (ha : a.Received R) (hstep : fleetStep repr R f a = some f') : f'.Ok R (k + 1) := by
  cases a with
  | request r =>
    cases hstep
    have hclean : (route f.db r).2.Clean R := clean_exec hR (List.forall_mem_singleton.mpr ha) h.clean rfl
    exact ⟨hclean, counted_route h.counted r, h.sane⟩
  | sync token machine deletes stops =>
    cases hstep
    exact h.mono.setAgent (sane_syncAgent hrepr hk h token machine deletes stops)
  | fail token =>
    cases hstep
    exact h.mono
  | died token pid =>
    cases hstep
    exact h.mono.setAgent ((h.sane token).step (e := .died pid) rfl (List.forall_mem_nil _))
  | shutdown token deletes =>
    cases hstep
    exact h.mono.setAgent ((h.sane token).step (e := .shutdown deletes) rfl (List.forall_mem_nil _))

/-- After any run the panel can tell all it has, and the agents are sane. -/
theorem ok_exec (hR : FloatPrints R) (hrepr : ReprPrints repr) {steps : List Step} (hsteps : ∀ a ∈ steps, a.Received R)
    (hshort : steps.length < 2 ^ 63) (hrun : exec (fleetStep repr R) System.start steps = some f) :
    f.Ok R steps.length := by
  have hstep : ∀ k g a g', (k < 2 ^ 63 → System.Ok R k g) → Step.Received R a → fleetStep repr R g a = some g' →
      k + 1 < 2 ^ 63 → System.Ok R (k + 1) g' := by
    intro k g a g' hg ha hga hk
    have hk' : k < 2 ^ 63 := by omega
    exact ok_fleetStep hR hrepr hk' (hg hk') ha hga
  have h := exec_inv_counted hstep (fun _ => ok_start) hsteps hrun
  rw [Nat.zero_add] at h
  exact h hshort

/-! ### One sync -/

/-- The tunnel is to run, and one of its halves at the node. -/
def EndsAt (t : Tunnel) (n : Node) : Prop := t.Running ∧ (t.listener = n.id ∨ t.dialer = n.id)

/-- The agent runs exactly the tunnels that end at its node, from what the rows say. -/
structure Agrees (repr : Json → Str) (db : Db) (n : Node) (machine : Str → Outcome) (s : HawalAgent) : Prop where
  tracked : ∀ k, s.processes.lookup k ≠ none ↔ ∃ t ∈ db.tunnels, EndsAt t n ∧ t.id.val = k
  runs : ∀ t ∈ db.tunnels, EndsAt t n → ∃ e l pid, syncEntry repr db n t = some (some e) ∧
    (itemOf e).offer dumpsCommand (machine t.id.val) = some l ∧ s.processes.lookup t.id.val = some pid ∧
    pid ∈ s.alive ∧ s.launches[pid]? = some l
  /-- No other process runs. -/
  only : ∀ pid ∈ s.alive, ∃ k, s.processes.lookup k = some pid

/-- What the last sync of the agent has left. -/
def Settles (repr : Json → Str) (db : Db) (n : Node) (machine : Str → Outcome) (s : HawalAgent) : Prop :=
  ∃ s₀ es, syncConfigs repr db n db.listTunnels = some es ∧
    Reconciled dumpsCommand s₀ s (answered machine (es.map itemOf))

variable {db : Db} {n : Node} {machine : Str → Outcome} {s : HawalAgent} {es : List Panel.Entry}

/-- The entries of an answer are those of the tunnels that end at the node. -/
theorem mem_answer_iff (hes : syncConfigs repr db n db.listTunnels = some es) {e : Panel.Entry} :
    e ∈ es ↔ ∃ t ∈ db.tunnels, EndsAt t n ∧ syncEntry repr db n t = some (some e) := by
  constructor
  · intro he
    obtain ⟨t, ht, hentry⟩ := mem_syncConfigs repr hes e he
    obtain ⟨hrun, -, -, hrole⟩ := syncEntry_eq_some repr hentry
    exact ⟨t, ht, ⟨hrun, hrole.imp And.right fun h => h.2.2⟩, hentry⟩
  · rintro ⟨t, ht, -, hentry⟩
    exact mem_syncConfigs_of repr hes ht hentry

theorem exists_entry_of_endsAt (hes : syncConfigs repr db n db.listTunnels = some es) {t : Tunnel} (ht : t ∈ db.tunnels)
    (hend : EndsAt t n) : ∃ e ∈ es, syncEntry repr db n t = some (some e) := by
  have hsome : syncEntry repr db n t ≠ none := by
    intro hnone
    have hraises : syncConfigs repr db n db.listTunnels = none := (syncConfigs_eq_none repr).mpr ⟨t, ht, hnone⟩
    rw [hes] at hraises
    cases hraises
  have hends : t.serverNodeId = n.id ∨ t.clientNodeId = n.id := by
    have hend := hend.2
    unfold Tunnel.listener Tunnel.dialer at hend
    split at hend
    · exact hend.symm
    · exact hend
  obtain ⟨e, he⟩ := exists_entry repr hend.1 hends hsome
  exact ⟨e, mem_syncConfigs_of repr hes ht he, he⟩

/-- An answer has one entry for a tunnel at most. -/
theorem nodup_answer {ts : List Tunnel} (hnodup : (ts.map Tunnel.id).Nodup) :
    ∀ {es : List Panel.Entry}, syncConfigs repr db n ts = some es → (es.map Panel.Entry.tunnelId).Nodup := by
  induction ts with
  | nil =>
    intro es h
    cases h
    exact List.nodup_nil
  | cons t ts ih =>
    intro es h
    obtain ⟨o, rest, ho, hrest, rfl⟩ := (syncConfigs_cons repr).mp h
    rw [List.map_cons, List.nodup_cons] at hnodup
    cases o with
    | none => exact ih hnodup.2 hrest
    | some e =>
      have hid : e.tunnelId = t.id := (syncEntry_eq_some repr ho).2.1
      refine List.nodup_cons.mpr ⟨fun hmem => hnodup.1 ?_, ih hnodup.2 hrest⟩
      obtain ⟨e', he', hid'⟩ := List.mem_map.mp hmem
      obtain ⟨t', ht', hentry⟩ := mem_syncConfigs repr hrest e' he'
      rw [← hid, ← hid', (syncEntry_eq_some repr hentry).2.1]
      exact List.mem_map_of_mem ht'

theorem mem_answered {io : Item × Outcome} :
    io ∈ answered machine (es.map itemOf) ↔ ∃ e ∈ es, io = (itemOf e, machine e.tunnelId.val) := by
  simp only [answered, List.map_map, List.mem_map, Function.comp_apply, eq_comm (a := io)]
  rfl

theorem nodup_answered (hes : syncConfigs repr db n db.listTunnels = some es) :
    ((answered machine (es.map itemOf)).map fun io => io.1.tunnelId).Nodup := by
  have hids : (answered machine (es.map itemOf)).map (fun io => io.1.tunnelId) =
      (es.map Panel.Entry.tunnelId).map Subtype.val := by
    simp only [answered, List.map_map]
    rfl
  rw [hids]
  exact (nodup_answer db.tunnels.nodup hes).map Subtype.val_injective

theorem ready_answered (hes : syncConfigs repr db n db.listTunnels = some es) :
    ∀ io ∈ answered machine (es.map itemOf), io.1.Ready := by
  intro io hio
  obtain ⟨e, he, rfl⟩ := mem_answered.mp hio
  obtain ⟨t, -, hentry⟩ := mem_syncConfigs repr hes e he
  exact ready_itemOf (proper_syncEntry hentry)

theorem good_answered (hgood : ∀ tun, (machine tun).Good) : ∀ io ∈ answered machine (es.map itemOf), io.2.Good := by
  intro io hio
  obtain ⟨e, -, rfl⟩ := mem_answered.mp hio
  exact hgood _

/-- A sync in which the machine does what it is asked for. -/
theorem settles_apply (hs : Sane s) (hes : syncConfigs repr db n db.listTunnels = some es)
    (hgood : ∀ tun, (machine tun).Good) (deletes : Str → Deletes) :
    Settles repr db n machine (applyConfigs dumpsCommand s (given (answered machine (es.map itemOf))) deletes) := by
  obtain ⟨ls, hls, hsettled⟩ := applyConfigs_settled dumpsCommand hs.tidy (ready_answered hes) (good_answered hgood)
    (nodup_answered hes) deletes
  refine ⟨s, es, hes, hsettled.reconciled dumpsCommand hs.tidy hls ?_⟩
  -- both are marked, so that the content tells the core
  intro l' hl' l hl hcontent
  obtain ⟨io, hio, hoffer⟩ := (mem_launchesOf dumpsCommand hls).2 l hl
  have hmarked : Marked l := marked_answered hes machine l
    (List.mem_filterMap.mpr ⟨(some io.1, io.2), List.mem_map_of_mem hio, hoffer⟩)
  have hmarked' : engineOf l'.content = some l'.engine := hs.marked l' hl'
  rw [hcontent, hmarked, Option.some.injEq] at hmarked'
  exact hmarked'.symm

theorem Settles.agrees (h : Settles repr db n machine s) (hs : Sane s) : Agrees repr db n machine s := by
  obtain ⟨s₀, es, hes, hr⟩ := h
  refine ⟨fun k => ?_, fun t ht hend => ?_, hs.tidy.alive⟩
  · rw [hr.tracked]
    constructor
    · rintro ⟨io, hio, rfl⟩
      obtain ⟨e, he, rfl⟩ := mem_answered.mp hio
      obtain ⟨t, ht, hend, hentry⟩ := (mem_answer_iff hes).mp he
      exact ⟨t, ht, hend, congrArg Subtype.val (syncEntry_eq_some repr hentry).2.1.symm⟩
    · rintro ⟨t, ht, hend, rfl⟩
      obtain ⟨e, he, hentry⟩ := exists_entry_of_endsAt hes ht hend
      exact ⟨_, mem_answered.mpr ⟨e, he, rfl⟩, congrArg Subtype.val (syncEntry_eq_some repr hentry).2.1⟩
  · obtain ⟨e, he, hentry⟩ := exists_entry_of_endsAt hes ht hend
    obtain ⟨l, pid, hoffer, hpid, halive, hlaunch⟩ := hr.runs _ (mem_answered.mpr ⟨e, he, rfl⟩)
    have hid : e.tunnelId = t.id := (syncEntry_eq_some repr hentry).2.1
    have hitem : (itemOf e).tunnelId = t.id.val := congrArg Subtype.val hid
    rw [hid] at hoffer
    rw [hitem] at hpid
    exact ⟨e, l, pid, hentry, hoffer, hpid, halive, hlaunch⟩

/-- Another sync of a settled agent changes nothing. -/
theorem Settles.again (h : Settles repr db n machine s) (hs : Sane s)
    (hes : syncConfigs repr db n db.listTunnels = some es)
    (hgood : ∀ tun, (machine tun).Good) (deletes : Str → Deletes) :
    applyConfigs dumpsCommand s (given (answered machine (es.map itemOf))) deletes = s := by
  obtain ⟨s₀, es₀, hes₀, hr⟩ := h
  rw [hes] at hes₀
  cases hes₀
  exact hr.again dumpsCommand hs.tidy (ready_answered hes) (good_answered hgood) rfl deletes

/-! ### Quiet runs -/

/-- Only syncs, in which the machine of the token does what it is asked for. -/
def Quiet (machines : Text → Str → Outcome) (a : Step) : Prop :=
  ∃ token deletes stops, a = .sync token (machines token) deletes stops

/-- How often the agent with the token syncs. -/
def syncs (token : Text) : List Step → ℕ
  | [] => 0
  | .sync token' _ _ _ :: rest => (if token' = token then 1 else 0) + syncs token rest
  | _ :: rest => syncs token rest

/-- How often the node's agent has to sync: once more when it is still to restart. -/
def System.syncsDue (f : System) (n : Node) : ℕ := if n.agentRestartNonce > f.nonces n.token then 2 else 1

/-- So many syncs of the node's agent are enough for it to be settled. -/
def System.Within (repr : Json → Str) (machines : Text → Str → Outcome) (f : System) (n : Node) : ℕ → Prop
  | 0 => n.agentRestartNonce ≤ f.nonces n.token ∧ Settles repr f.db n (machines n.token) (f.agents n.token)
  | 1 => n.agentRestartNonce ≤ f.nonces n.token
  | _ + 2 => True

variable {machines : Text → Str → Outcome} {k : ℕ}

theorem System.within_syncsDue (f : System) (n : Node) : f.Within repr machines n (f.syncsDue n) := by
  unfold System.syncsDue
  split
  · trivial
  · rename_i hle
    exact Int.not_lt.mp hle

theorem System.Within.rested {j : ℕ} (h : f.Within repr machines n j) (hj : j ≤ 1) :
    n.agentRestartNonce ≤ f.nonces n.token := by
  rcases j with _ | _ | j
  · exact h.1
  · exact h
  · omega

theorem db_of_quiet {a : Step} (ha : Quiet machines a) (hstep : fleetStep repr R f a = some f') : f'.db = f.db := by
  obtain ⟨token, deletes, stops, rfl⟩ := ha
  cases hstep
  rfl

theorem ok_of_quiet (hrepr : ReprPrints repr) (hk : k < 2 ^ 63) (hok : f.Ok R k) {a : Step} (ha : Quiet machines a)
    (hstep : fleetStep repr R f a = some f') : f'.Ok R k := by
  obtain ⟨token, deletes, stops, rfl⟩ := ha
  cases hstep
  exact hok.setAgent (sane_syncAgent hrepr hk hok token _ deletes stops)

/-- Nothing is raised when the machine does what it is asked for. -/
theorem handled_good (hs : Sane s) (hes : syncConfigs repr db n db.listTunnels = some es)
    (hgood : ∀ tun, (machine tun).Good) (nonce requestedNonce : ℤ) (deletes stops : Str → Deletes) :
    handled nonce requestedNonce s (answered machine (es.map itemOf)) deletes stops =
      if requestedNonce > nonce then
        (stopAll stops (applyConfigs dumpsCommand s (given (answered machine (es.map itemOf))) deletes)
          (applyConfigs dumpsCommand s (given (answered machine (es.map itemOf))) deletes).processes.keys, requestedNonce)
      else (applyConfigs dumpsCommand s (given (answered machine (es.map itemOf))) deletes, nonce) := by
  obtain ⟨-, -, hflag, -⟩ := applyItems_good dumpsCommand hs.tidy (ready_answered hes) (good_answered hgood)
    (nodup_answered hes)
  simp only [handled, hflag, true_and]

/-- The node's agent is answered. -/
theorem syncAgent_node (hrepr : ReprPrints repr) (hk : k < 2 ^ 63) (hok : f.Ok R k) (hn : n ∈ f.db.nodes)
    (hes : syncConfigs repr f.db n f.db.listTunnels = some es) (hgood : ∀ tun, (machine tun).Good)
    (deletes stops : Str → Deletes) :
    syncAgent repr R f.db n.token (f.agents n.token) (f.nonces n.token) machine deletes stops =
      if n.agentRestartNonce > f.nonces n.token then
        (stopAll stops (applyConfigs dumpsCommand (f.agents n.token) (given (answered machine (es.map itemOf))) deletes)
          (applyConfigs dumpsCommand (f.agents n.token) (given (answered machine (es.map itemOf))) deletes).processes.keys,
          n.agentRestartNonce)
      else
        (applyConfigs dumpsCommand (f.agents n.token) (given (answered machine (es.map itemOf))) deletes,
          f.nonces n.token) := by
  rcases syncAgent_eq hrepr hk hok n.token (f.agents n.token) (f.nonces n.token) machine deletes stops with
    ⟨hno, -⟩ | ⟨m, hm, hmtoken, es', hes', heq⟩
  · rcases hno n hn with hne | hnone
    · exact absurd rfl hne
    · rw [hes] at hnone
      cases hnone
  · have hmn : m = n := f.db.tokens m hm n hn hmtoken
    subst hmn
    rw [hes, Option.some.injEq] at hes'
    subst hes'
    rw [heq]
    exact handled_good (hok.sane _) hes hgood _ _ deletes stops

/-- With each sync of the node's agent one less is needed; other syncs leave it alone. -/
theorem within_sync (hrepr : ReprPrints repr) (hgood : ∀ token tun, (machines token tun).Good) (hchoked : ¬ f.db.Choked)
    (hk : k < 2 ^ 63) (hok : f.Ok R k) (hn : n ∈ f.db.nodes) {j : ℕ} (hj : f.Within repr machines n j) {token : Text}
    {deletes stops : Str → Deletes}
    (hstep : fleetStep repr R f (.sync token (machines token) deletes stops) = some f') :
    f'.Within repr machines n (j - if token = n.token then 1 else 0) := by
  cases hstep
  by_cases htoken : token = n.token
  · subst htoken
    obtain ⟨es, hes⟩ := exists_syncConfigs_of repr hchoked hn
    have hagent := syncAgent_node hrepr hk hok hn hes (hgood n.token) deletes stops
    rw [if_pos rfl]
    rcases j with _ | _ | _ | j
    · have hle := Int.not_lt.mpr (hj.rested (Nat.zero_le _))
      rw [if_neg hle] at hagent
      refine ⟨?_, ?_⟩
      · rw [nonces_setAgent_self, hagent]
        exact hj.1
      · rw [agents_setAgent_self, hagent]
        exact settles_apply (hok.sane _) hes (hgood _) deletes
    · have hle := Int.not_lt.mpr (hj.rested le_rfl)
      rw [if_neg hle] at hagent
      refine ⟨?_, ?_⟩
      · rw [nonces_setAgent_self, hagent]
        exact Int.not_lt.mp hle
      · rw [agents_setAgent_self, hagent]
        exact settles_apply (hok.sane _) hes (hgood _) deletes
    · -- the agent has restarted, if it was to
      show n.agentRestartNonce ≤ System.nonces _ n.token
      rw [nonces_setAgent_self, hagent]
      split
      · exact Int.le_refl _
      · rename_i hle
        exact Int.not_lt.mp hle
    · trivial
  · rw [if_neg htoken, Nat.sub_zero]
    have hne : n.token ≠ token := Ne.symm htoken
    rcases j with _ | _ | j
    · refine ⟨?_, ?_⟩
      · rw [nonces_setAgent_of_ne hne]
        exact hj.1
      · rw [agents_setAgent_of_ne hne]
        exact hj.2
    · show n.agentRestartNonce ≤ System.nonces _ n.token
      rw [nonces_setAgent_of_ne hne]
      exact hj
    · trivial

/-- Once the agents are settled, a quiet step changes nothing. -/
theorem quiet_settled (hrepr : ReprPrints repr) (hgood : ∀ token tun, (machines token tun).Good)
    (hk : k < 2 ^ 63) (hok : f.Ok R k) (hcalm : ∀ n ∈ f.db.nodes, f.Within repr machines n 0) {a : Step}
    (ha : Quiet machines a) : fleetStep repr R f a = some f := by
  obtain ⟨token, deletes, stops, rfl⟩ := ha
  have hsame : syncAgent repr R f.db token (f.agents token) (f.nonces token) (machines token) deletes stops =
      (f.agents token, f.nonces token) := by
    rcases syncAgent_eq hrepr hk hok token (f.agents token) (f.nonces token) (machines token) deletes stops with
      ⟨-, heq⟩ | ⟨n, hn, rfl, es, hes, -⟩
    · exact heq
    · obtain ⟨hrested, hsettles⟩ := hcalm n hn
      rw [syncAgent_node hrepr hk hok hn hes (hgood _), if_neg (Int.not_lt.mpr hrested),
        hsettles.again (hok.sane _) hes (hgood _) deletes]
  rw [fleetStep, hsame, System.setAgent, Function.update_eq_self, Function.update_eq_self]

/-- A quiet run settles the agents that sync often enough in it. -/
theorem within_exec (hrepr : ReprPrints repr) (hgood : ∀ token tun, (machines token tun).Good) (hk : k < 2 ^ 63)
    {quiet : List Step} (hquiet : ∀ a ∈ quiet, Quiet machines a) : ∀ {f : System} {due : Node → ℕ},
      ¬ f.db.Choked → f.Ok R k → (∀ n ∈ f.db.nodes, f.Within repr machines n (due n)) →
      exec (fleetStep repr R) f quiet = some f' →
      f'.db = f.db ∧ f'.Ok R k ∧ ∀ n ∈ f.db.nodes, f'.Within repr machines n (due n - syncs n.token quiet) := by
  induction quiet with
  | nil =>
    intro f due _ hok hcalm hrun
    cases hrun
    exact ⟨rfl, hok, hcalm⟩
  | cons a quiet ih =>
    intro f due hchoked hok hcalm hrun
    rw [List.forall_mem_cons] at hquiet
    obtain ⟨f₁, hstep, hrest⟩ := exec_cons_eq_some.mp hrun
    have hdb := db_of_quiet hquiet.1 hstep
    have hok₁ := ok_of_quiet hrepr hk hok hquiet.1 hstep
    obtain ⟨token, deletes, stops, rfl⟩ := hquiet.1
    have hcalm₁ : ∀ n ∈ f₁.db.nodes, f₁.Within repr machines n (due n - if token = n.token then 1 else 0) :=
      fun n hn => within_sync hrepr hgood hchoked hk hok (hdb ▸ hn) (hcalm n (hdb ▸ hn)) hstep
    obtain ⟨hdb', hok', hcalm'⟩ := ih hquiet.2 (hdb ▸ hchoked) hok₁ hcalm₁ hrest
    refine ⟨hdb'.trans hdb, hok', fun n hn => ?_⟩
    rw [syncs, ← Nat.sub_sub]
    exact hcalm' n (hdb ▸ hn)

/-- **A run, and a quiet run after it** in which each node's agent syncs: no more requests come, no rules of a tunnel
make the panel raise, and the machines do what they are asked for. -/
structure Settling (repr : Json → Str) (R : FloatReader) (machines : Text → Str → Outcome) (steps quiet : List Step)
    (f f' : System) : Prop where
  received : ∀ a ∈ steps, a.Received R
  short : steps.length < 2 ^ 63
  run : exec (fleetStep repr R) System.start steps = some f
  served : ¬ f.db.Choked
  good : ∀ token tun, (machines token tun).Good
  quietly : ∀ a ∈ quiet, Quiet machines a
  all : ∀ n ∈ f.db.nodes, f.syncsDue n ≤ syncs n.token quiet
  rest : exec (fleetStep repr R) f quiet = some f'

section Settling

variable {steps quiet : List Step} (hR : FloatPrints R) (hrepr : ReprPrints repr)
  (h : Settling repr R machines steps quiet f f')

include hR hrepr h

/-- Then all agents are settled. -/
theorem Settling.calm :
    f'.db = f.db ∧ f'.Ok R steps.length ∧ ∀ n ∈ f.db.nodes, f'.Within repr machines n 0 := by
  have hok := ok_exec hR hrepr h.received h.short h.run
  have hdue : ∀ n ∈ f.db.nodes, f.Within repr machines n (f.syncsDue n) := fun n _ => f.within_syncsDue n
  obtain ⟨hdb, hok', hcalm⟩ := within_exec hrepr h.good h.short h.quietly h.served hok hdue h.rest
  refine ⟨hdb, hok', fun n hn => ?_⟩
  have hn' := hcalm n hn
  rw [Nat.sub_eq_zero_of_le (h.all n hn)] at hn'
  exact hn'

/-- And each runs what its entries say. -/
theorem Settling.agrees : ∀ n ∈ f.db.nodes, Agrees repr f.db n (machines n.token) (f'.agents n.token) := by
  obtain ⟨hdb, hok, hcalm⟩ := h.calm hR hrepr
  intro n hn
  have hsettles := (hcalm n hn).2
  rw [hdb] at hsettles
  exact hsettles.agrees (hok.sane _)

/-- **Convergence**: after any run, when no more requests come, no rules of a tunnel make the panel raise, and the
machines do what they are asked for, then once each node's agent has synced, and once more if it was still to
restart, it runs exactly the tunnels that end at the node, from what their rows say. More such syncs leave everything
as it is. -/
theorem fleet_converges :
    f'.db = f.db ∧ (∀ n ∈ f.db.nodes, Agrees repr f.db n (machines n.token) (f'.agents n.token)) ∧
      ∀ more : List Step, (∀ a ∈ more, Quiet machines a) → exec (fleetStep repr R) f' more = some f' := by
  obtain ⟨hdb, hok, hcalm⟩ := h.calm hR hrepr
  refine ⟨hdb, h.agrees hR hrepr, fun more hmore => ?_⟩
  induction more with
  | nil => rfl
  | cons a more ih =>
    rw [List.forall_mem_cons] at hmore
    exact exec_cons_eq_some.mpr ⟨f', quiet_settled hrepr h.good h.short hok (hdb ▸ hcalm) hmore.1, ih hmore.2⟩

end Settling

/-- The agent runs this half of the tunnel, from this payload. -/
def Carries (machine : Str → Outcome) (s : HawalAgent) (t : Tunnel) (role : Role) (p : Payload) : Prop :=
  ∃ l pid, (itemOf (t.entry role p)).offer dumpsCommand (machine t.id.val) = some l ∧
    s.processes.lookup t.id.val = some pid ∧ pid ∈ s.alive ∧ s.launches[pid]? = some l

/-- An agent that agrees runs what its node's entry says. -/
theorem Agrees.carries (h : Agrees repr db n machine s) {t : Tunnel} (ht : t ∈ db.tunnels) (hend : EndsAt t n)
    {role : Role} {p : Payload} (hentry : syncEntry repr db n t = some (some (t.entry role p))) :
    Carries machine s t role p := by
  obtain ⟨e, l, pid, he, hoffer, hpid, halive, hlaunch⟩ := h.runs t ht hend
  rw [hentry] at he
  cases he
  exact ⟨l, pid, hoffer, hpid, halive, hlaunch⟩

theorem syncEntry_listener (repr : Json → Str) (db : Db) {t : Tunnel} (hrunning : t.Running) {l : Node}
    (hlid : t.listener = l.id)
    {p : Payload} (hpay : serverPayload repr t = some p) :
    syncEntry repr db l t = some (some (t.entry .server p)) := by
  rw [syncEntry_of_running repr hrunning, if_pos hlid, hpay]
  rfl

theorem syncEntry_dialer (repr : Json → Str) {t : Tunnel} (hrunning : t.Running) {l d : Node} (hl : l ∈ db.nodes)
    (hd : d ∈ db.nodes) (hlid : t.listener = l.id) (hdid : t.dialer = d.id) (hne : l ≠ d) {p : Payload}
    (hpay : clientPayload repr t l.ip.val = some p) : syncEntry repr db d t = some (some (t.entry .client p)) := by
  have hids : l.id ≠ d.id := fun hid => hne (Table.eq_of_key hl hd hid)
  rw [syncEntry_of_running repr hrunning, if_neg (hlid ▸ hids), if_pos hdid, hlid, nodeIp_id hl, hpay]
  rfl

/-- Two nodes, a Hawal tunnel between them, and a request to restart all agents. -/
def pairSteps : List Step :=
  [.request (.createNode 1 1 true (sent "\x7b\x7d")), .request (.createNode 2 2 true (sent "\x7b\x7d")),
    .request (.createTunnel 1 1 (sent
      "\x7b\"server_node_id\": \"node_00000001\", \"client_node_id\": \"node_00000002\"\x7d")),
    .request .restartAgents]

theorem isSome_iter_of_strings {v : Json} (h : (strings? v).isSome = true) : v.iter.isSome = true := by
  cases v <;> simp_all [strings?, Json.iter]

/-- Everything succeeds. -/
def able : Text → Str → Outcome := fun _ _ => launching true

/-- A sync of an agent. -/
def ableSync (token : Text) : Step := .sync token (able token) (fun _ _ => none) fun _ _ => none

/-- Each of the two agents syncs, restarts and syncs again. -/
def pairQuiet : List Step :=
  [ableSync (tokenHex 32 2), ableSync (tokenHex 32 1), ableSync (tokenHex 32 2), ableSync (tokenHex 32 1)]

/-- The run of the example ends with the two nodes, and with a Hawal tunnel between them that is to run. -/
def Linked (f : System) : Prop :=
  ¬ f.db.Choked ∧ (∀ n ∈ f.db.nodes.rows, n.token = tokenHex 32 2 ∨ n.token = tokenHex 32 1) ∧
    ∃ t ∈ f.db.tunnels.rows, t.Running ∧ t.coreType = text "hawal" ∧ t.token.val ≠ [] ∧ (strings? t.ports).isSome = true ∧
      ∃ l ∈ f.db.nodes.rows, ∃ d ∈ f.db.nodes.rows, t.listener = l.id ∧ t.dialer = d.id ∧ l ≠ d

instance (f : System) : Decidable (Linked f) := inferInstanceAs (Decidable (_ ∧ _ ∧ _))

theorem exists_pair :
    ∃ f, exec (fleetStep (fun _ => []) Settings.verbatim) System.start pairSteps = some f ∧ Linked f :=
  exists_of_any (by decide +kernel)

theorem pair_settling (hrun : exec (fleetStep (fun _ => []) Settings.verbatim) System.start pairSteps = some f)
    (hpair : Linked f) : ∃ f', Settling (fun _ => []) Settings.verbatim able pairSteps pairQuiet f f' := by
  refine ⟨_, ?_, by decide, hrun, hpair.1, fun _ _ => launching_good, ?_, fun n hn => ?_, rfl⟩
  · simp only [pairSteps, List.forall_mem_cons]
    exact ⟨received_sent rfl rfl, received_sent rfl rfl, received_sent rfl rfl, received_of_no_body rfl rfl,
      List.forall_mem_nil _⟩
  · simp only [pairQuiet, List.forall_mem_cons]
    exact ⟨⟨_, _, _, rfl⟩, ⟨_, _, _, rfl⟩, ⟨_, _, _, rfl⟩, ⟨_, _, _, rfl⟩, List.forall_mem_nil _⟩
  · -- two syncs are always enough
    have hdue : f.syncsDue n ≤ 2 := by
      unfold System.syncsDue
      split <;> decide
    refine hdue.trans ?_
    rcases hpair.2.1 n hn with h | h
    · rw [h]
      decide
    · rw [h]
      decide

theorem pair_converges : ∃ f f', exec (fleetStep (fun _ => []) Settings.verbatim) f pairQuiet = some f' ∧
    ∀ n ∈ f.db.nodes, Agrees (fun _ => []) f.db n (able n.token) (f'.agents n.token) := by
  obtain ⟨f, hrun, hpair⟩ := exists_pair
  obtain ⟨f', hsettling⟩ := pair_settling hrun hpair
  exact ⟨f, f', hsettling.rest, (fleet_converges floatPrints_verbatim reprPrints_nil hsettling).2.1⟩

end Hawal.Fleet
