import Hawal.Fleet.Converge
import Hawal.Agent.Launches

/-!
# Restarting a tunnel

`POST /api/tunnels/<id>/restart` adds one to the nonce of the row, and the next sync of an agent that runs a half of
the tunnel starts it anew. `restarts_served` counts: from agents that are settled, in any order of such requests and
of syncs, an agent starts a tunnel exactly as often as it syncs with a request for the tunnel since its last sync.
No request is served twice or for another tunnel, and several before one sync are served together.
-/

namespace Hawal.Fleet

open Hawal.Lib Hawal.Lib.Python Hawal.Panel Hawal.Agent

variable {repr : Json → Str} {R : FloatReader}

/-! ### Rows with other nonces -/

/-- The row after so many restarts. -/
def bump (c : Text → ℕ) (t : Tunnel) : Tunnel := { t with restartNonce := t.restartNonce + c t.id }

/-- The entry after so many restarts. -/
def bumpEntry (c : ℕ) (e : Panel.Entry) : Panel.Entry := { e with restartNonce := e.restartNonce + c }

/-- The rows are those of before, but for the nonces of tunnels. -/
structure Bumped (c : Text → ℕ) (db db' : Db) : Prop where
  nodes : db'.nodes = db.nodes
  tunnels : db'.tunnels.rows = db.tunnels.rows.map (bump c)

variable {c : Text → ℕ} {db db' : Db} {n : Node} {t : Tunnel} {e : Panel.Entry}

theorem bump_zero (t : Tunnel) : bump (fun _ => 0) t = t := by simp [bump]

theorem Bumped.refl (db : Db) : Bumped (fun _ => 0) db db :=
  ⟨rfl, by simp only [funext bump_zero, List.map_id']⟩

/-- A request to restart a tunnel, served or not. -/
theorem Bumped.restart (h : Bumped c db db') (id : Text) :
    Bumped (fun k => c k + if k = id then 1 else 0) db (route db' (.restartTunnel id)).2 := by
  have hbump : ∀ t : Tunnel, bump (fun k => c k + if k = id then 1 else 0) t =
      if (bump c t).id = id then { bump c t with restartNonce := (bump c t).restartNonce + 1 } else bump c t := by
    intro t
    by_cases hid : t.id = id
    · have hcast : t.restartNonce + (c id + 1 : ℕ) = t.restartNonce + c id + 1 := by omega
      simp only [bump, hid, if_true, hcast]
    · simp only [bump, hid, if_false, add_zero]
  cases hfound : db'.getTunnel id with
  | none =>
    have hroute : (route db' (.restartTunnel id)).2 = db' := by simp only [route, restartTunnel, hfound, settle]
    rw [hroute]
    refine ⟨h.nodes, ?_⟩
    rw [h.tunnels]
    refine List.map_congr_left fun t ht => ?_
    have hmem : bump c t ∈ db'.tunnels := by
      show bump c t ∈ db'.tunnels.rows
      rw [h.tunnels]
      exact List.mem_map_of_mem ht
    rw [hbump, if_neg (Table.find_eq_none.mp hfound _ hmem)]
  | some o =>
    have hroute : (route db' (.restartTunnel id)).2 = db'.requestTunnelRestart id := by
      simp only [route, restartTunnel, hfound, settle]
    rw [hroute]
    refine ⟨h.nodes, ?_⟩
    have hrows : (db'.requestTunnelRestart id).tunnels.rows = db'.tunnels.rows.map fun t =>
        if t.id = id then { t with restartNonce := t.restartNonce + 1 } else t := rfl
    rw [hrows, h.tunnels, List.map_map]
    exact List.map_congr_left fun t _ => (hbump t).symm

theorem Bumped.nodeIp (h : Bumped c db db') (id : Text) : db'.nodeIp id = db.nodeIp id := by
  rw [Db.nodeIp, Db.getNode, h.nodes]
  rfl

theorem serverPayload_bump (t : Tunnel) : serverPayload repr (bump c t) = serverPayload repr t := rfl

theorem clientPayload_bump (t : Tunnel) (ip : Str) : clientPayload repr (bump c t) ip = clientPayload repr t ip := rfl

/-- The entry for a row shows the nonce, and nothing else of it. -/
theorem syncEntry_bump (h : Bumped c db db') (n : Node) (t : Tunnel) :
    syncEntry repr db' n (bump c t) = (syncEntry repr db n t).map (Option.map (bumpEntry (c t.id))) := by
  by_cases hrun : t.Running
  · have hrun' : (bump c t).Running := hrun
    have hl : (bump c t).listener = t.listener := rfl
    have hd : (bump c t).dialer = t.dialer := rfl
    rw [syncEntry_of_running repr hrun, syncEntry_of_running repr hrun', hl, hd, h.nodeIp, serverPayload_bump,
      clientPayload_bump]
    split
    · rw [Option.map_map]
      rfl
    split
    · rw [Option.map_map]
      rfl
    · rfl
  · have hrun' : ¬ (bump c t).Running := hrun
    rw [syncEntry_of_not_running repr hrun, syncEntry_of_not_running repr hrun']
    rfl

theorem exists_syncConfigs_bump (h : Bumped c db db') {es : List Panel.Entry}
    (hes : syncConfigs repr db n db.listTunnels = some es) :
    ∃ es', syncConfigs repr db' n db'.listTunnels = some es' := by
  refine Option.ne_none_iff_exists'.mp fun hnone => ?_
  obtain ⟨t', ht', hraises⟩ := (syncConfigs_eq_none repr).mp hnone
  have hrow : t' ∈ db.tunnels.rows.map (bump c) := h.tunnels ▸ ht'
  obtain ⟨t, ht, rfl⟩ := List.mem_map.mp hrow
  rw [syncEntry_bump h, Option.map_eq_none_iff] at hraises
  have hold := (syncConfigs_eq_none repr).mpr ⟨t, ht, hraises⟩
  rw [show db.tunnels.rows = db.listTunnels from rfl, hes] at hold
  cases hold

/-- What a core is started from, for an entry with another nonce. -/
theorem offer_bumpEntry {o : Outcome} {l : Launch} (h : (itemOf e).offer dumpsCommand o = some l) (k : ℕ) :
    (itemOf (bumpEntry k e)).offer dumpsCommand o = some { l with nonce := l.nonce + k } := by
  obtain ⟨tunnelId, role, payload, nonce⟩ := e
  cases payload with
  | hawal config =>
    cases h
    rfl
  | backhaul toml =>
    cases h
    rfl
  | paqet corePort ports yaml =>
    obtain ⟨net, hnet, h⟩ := Option.bind_eq_some_iff.mp h
    cases h
    exact Option.bind_eq_some_iff.mpr ⟨net, hnet, rfl⟩
  | gost command =>
    cases h
    rfl

/-! ### An agent that was settled -/

variable {machine : Str → Outcome} {s : HawalAgent}

theorem endsAt_bump : EndsAt (bump c t) n ↔ EndsAt t n := Iff.rfl

/-- The process of a tunnel is current unless a restart is owed. -/
theorem isCurrent_of_owes (hs : Sane s) {db₀ : Db} (h : Bumped c db₀ db) (hsettles : Settles repr db₀ n machine s)
    {t₀ : Tunnel} (ht₀ : t₀ ∈ db₀.tunnels) (hend : EndsAt t₀ n) :
    ∃ e l, syncEntry repr db n (bump c t₀) = some (some e) ∧ e.tunnelId = t₀.id ∧ l.tunnelId = t₀.id.val ∧
      (itemOf e).offer dumpsCommand (machine e.tunnelId.val) = some l ∧ (s.isCurrent l = true ↔ c t₀.id = 0) := by
  obtain ⟨e₀, l₀, pid, hentry, hoffer, hpid, halive, hlaunch⟩ := (hsettles.agrees hs).runs t₀ ht₀ hend
  have hid : e₀.tunnelId = t₀.id := (syncEntry_eq_some repr hentry).2.1
  have hlid : l₀.tunnelId = t₀.id.val := (Item.offer_id dumpsCommand hoffer).trans (congrArg Subtype.val hid)
  refine ⟨bumpEntry (c t₀.id) e₀, { l₀ with nonce := l₀.nonce + c t₀.id }, ?_, hid, hlid, ?_, ?_⟩
  · rw [syncEntry_bump h, hentry]
    rfl
  · have hmachine : (bumpEntry (c t₀.id) e₀).tunnelId.val = t₀.id.val := congrArg Subtype.val hid
    rw [hmachine]
    exact offer_bumpEntry hoffer _
  · rw [isCurrent_iff hs.tidy]
    constructor
    · rintro ⟨pid', l', hpid', -, hlaunch', -, -, hnonce⟩
      rw [hlid, hpid, Option.some.injEq] at hpid'
      subst hpid'
      rw [hlaunch, Option.some.injEq] at hlaunch'
      subst hlaunch'
      simp only at hnonce
      omega
    · intro hzero
      exact ⟨pid, l₀, hlid.symm ▸ hpid, halive, hlaunch, rfl, rfl, by simp [hzero]⟩

/-! ### Runs of restarts and syncs -/

/-- How often the agent with the token syncs with a request for the tunnel since its last sync. Whether there is
one before the first step is `owed`. -/
def served (token id : Text) : Bool → List Step → ℕ
  | _, [] => 0
  | owed, .request (.restartTunnel id') :: rest => served token id (owed || decide (id = id')) rest
  | owed, .sync token' _ _ _ :: rest =>
    if token' = token then (if owed then 1 else 0) + served token id false rest else served token id owed rest
  | owed, _ :: rest => served token id owed rest

/-- A request to restart a tunnel, or a step of a quiet run. -/
def Restarting (machines : Text → Str → Outcome) (a : Step) : Prop :=
  Quiet machines a ∨ ∃ id, a = .request (.restartTunnel id)

variable {machines : Text → Str → Outcome} {f f' : System} {k : ℕ}

theorem Restarting.received {a : Step} (h : Restarting machines a) : a.Received R := by
  rcases h with ⟨token, deletes, stops, rfl⟩ | ⟨id, rfl⟩
  · trivial
  · exact received_of_no_body rfl rfl

theorem row_bump {db₀ : Db} (h : Bumped c db₀ db) {t₀ : Tunnel} (ht₀ : t₀ ∈ db₀.tunnels) : bump c t₀ ∈ db.tunnels := by
  show bump c t₀ ∈ db.tunnels.rows
  rw [h.tunnels]
  exact List.mem_map_of_mem ht₀

/-- A sync starts a tunnel for which a restart is owed, and leaves the process of another. -/
theorem sync_owes (hrepr : ReprPrints repr) (hgood : ∀ tun, (machine tun).Good) (hk : k < 2 ^ 63) (hok : f.Ok R k)
    (hn : n ∈ f.db.nodes) (hrested : n.agentRestartNonce ≤ f.nonces n.token) {db₀ : Db} (hbumped : Bumped c db₀ f.db)
    (hsettles : Settles repr db₀ n machine (f.agents n.token)) {t₀ : Tunnel} (ht₀ : t₀ ∈ db₀.tunnels)
    (hend : EndsAt t₀ n) (deletes stops : Str → Deletes) :
    ∃ s', syncAgent repr R f.db n.token (f.agents n.token) (f.nonces n.token) machine deletes stops =
        (s', f.nonces n.token) ∧ Settles repr f.db n machine s' ∧
      s'.started t₀.id.val = (f.agents n.token).started t₀.id.val + (if c t₀.id = 0 then 0 else 1) ∧
      (c t₀.id = 0 → s'.processes.lookup t₀.id.val = (f.agents n.token).processes.lookup t₀.id.val) := by
  obtain ⟨es, hes⟩ : ∃ es, syncConfigs repr f.db n f.db.listTunnels = some es := by
    obtain ⟨s₀, es₀, hes₀, -⟩ := id hsettles
    exact exists_syncConfigs_bump hbumped hes₀
  have hs := hok.sane n.token
  obtain ⟨e, l, hentry, heid, hlid, hoffer, hcur⟩ := isCurrent_of_owes hs hbumped hsettles ht₀ hend
  have he : e ∈ es := mem_syncConfigs_of repr hes (row_bump hbumped ht₀) hentry
  have hstarted := started_applyConfigs dumpsCommand hs.tidy (ready_answered hes) (good_answered hgood)
    (nodup_answered hes) deletes (mem_answered.mpr ⟨e, he, rfl⟩) hoffer
  rw [hlid] at hstarted
  refine ⟨_, ?_, settles_apply hs hes hgood deletes, ?_, fun hzero => hstarted.2 (hcur.mpr hzero)⟩
  · rw [syncAgent_node hrepr hk hok hn hes hgood, if_neg (Int.not_lt.mpr hrested)]
  rw [hstarted.1]
  by_cases hzero : c t₀.id = 0
  · rw [if_pos (hcur.mpr hzero), if_pos hzero]
  · rw [if_neg (fun h => hzero (hcur.mp h)), if_neg hzero]

/-- The count over a run, with what is owed before it. -/
theorem served_exec (hR : FloatPrints R) (hrepr : ReprPrints repr) (hgood : ∀ token tun, (machines token tun).Good)
    {stretch : List Step} (hstretch : ∀ a ∈ stretch, Restarting machines a) :
    ∀ {f : System} {k : ℕ} {c : Text → ℕ} {db₀ : Db} {t₀ : Tunnel}, k + stretch.length < 2 ^ 63 → f.Ok R k →
      n ∈ f.db.nodes → n.agentRestartNonce ≤ f.nonces n.token → Bumped c db₀ f.db →
      Settles repr db₀ n (machines n.token) (f.agents n.token) →
      t₀ ∈ db₀.tunnels → EndsAt t₀ n → exec (fleetStep repr R) f stretch = some f' →
      (f'.agents n.token).started t₀.id.val =
          (f.agents n.token).started t₀.id.val + served n.token t₀.id (decide (c t₀.id ≠ 0)) stretch ∧
        (served n.token t₀.id (decide (c t₀.id ≠ 0)) stretch = 0 →
          (f'.agents n.token).processes.lookup t₀.id.val = (f.agents n.token).processes.lookup t₀.id.val) := by
  induction stretch with
  | nil =>
    intro f k c db₀ t₀ _ _ _ _ _ _ _ _ hrun
    cases hrun
    exact ⟨rfl, fun _ => rfl⟩
  | cons a stretch ih =>
    intro f k c db₀ t₀ hk hok hn hrested hbumped hsettles ht₀ hend hrun
    rw [List.forall_mem_cons] at hstretch
    rw [List.length_cons] at hk
    have hk' : k + 1 + stretch.length < 2 ^ 63 := by omega
    obtain ⟨f₁, hstep, hrest⟩ := exec_cons_eq_some.mp hrun
    have hok₁ : f₁.Ok R (k + 1) := ok_fleetStep hR hrepr (by omega) hok hstretch.1.received hstep
    rcases hstretch.1 with ⟨token, deletes, stops, rfl⟩ | ⟨id, rfl⟩
    · cases hstep
      by_cases htoken : token = n.token
      · subst htoken
        obtain ⟨s', hsync, hsettles₁, hcount, hstays⟩ :=
          sync_owes hrepr (hgood n.token) (by omega) hok hn hrested hbumped hsettles ht₀ hend deletes stops
        rw [hsync] at hok₁ hrest
        have hrow := row_bump hbumped ht₀
        have hagain := ih hstretch.2 hk' hok₁ hn (by rw [nonces_setAgent_self]; exact hrested) (Bumped.refl f.db)
          (agents_setAgent_self (f := f) _ _ ▸ hsettles₁) hrow (endsAt_bump.mpr hend) hrest
        have hid : (bump c t₀).id = t₀.id := rfl
        rw [hid, agents_setAgent_self, hcount] at hagain
        simp only [served, if_true, ne_eq, not_true_eq_false, decide_false, decide_eq_true_eq, ite_not] at hagain ⊢
        refine ⟨by omega, fun hzero => ?_⟩
        have hnone : c t₀.id = 0 := by
          by_contra hne
          rw [if_neg hne] at hzero
          omega
        rw [hagain.2 (by omega), hstays hnone]
      · have hne : n.token ≠ token := fun h => htoken h.symm
        have hagain := ih hstretch.2 hk' hok₁ hn ((nonces_setAgent_of_ne hne _).symm ▸ hrested) hbumped
          ((agents_setAgent_of_ne hne _).symm ▸ hsettles) ht₀ hend hrest
        rw [agents_setAgent_of_ne hne] at hagain
        simpa only [served, if_neg htoken] using hagain
    · cases hstep
      have hbumped₁ := hbumped.restart id
      have hn₁ : n ∈ (route f.db (.restartTunnel id)).2.nodes := by
        rw [hbumped₁.nodes, ← hbumped.nodes]
        exact hn
      have hagain := ih hstretch.2 hk' hok₁ hn₁ hrested hbumped₁ hsettles ht₀ hend hrest
      have howed : decide ((c t₀.id + if t₀.id = id then 1 else 0) ≠ 0) =
          (decide (c t₀.id ≠ 0) || decide (t₀.id = id)) := by
        by_cases hid : t₀.id = id <;> simp [hid]
      rw [howed] at hagain
      exact hagain

/-- **Restarts are served**: from agents that are settled after any run, in every order of requests to restart
tunnels and of syncs, the agent of a node starts a tunnel that ends there exactly as often as it syncs with a
request for this tunnel since its last sync; and as long as there is none, the tunnel keeps its process. -/
theorem restarts_served (hR : FloatPrints R) (hrepr : ReprPrints repr) {steps quiet stretch : List Step} {f₁ : System}
    (h : Settling repr R machines steps quiet f f₁) (hshort : steps.length + stretch.length < 2 ^ 63)
    (hstretch : ∀ a ∈ stretch, Restarting machines a) (hend : exec (fleetStep repr R) f₁ stretch = some f') :
    ∀ n ∈ f.db.nodes, ∀ t ∈ f.db.tunnels, EndsAt t n →
      (f'.agents n.token).started t.id.val = (f₁.agents n.token).started t.id.val + served n.token t.id false stretch ∧
        (served n.token t.id false stretch = 0 →
          (f'.agents n.token).processes.lookup t.id.val = (f₁.agents n.token).processes.lookup t.id.val) := by
  intro n hn t ht hends
  obtain ⟨hdb, hok, hcalm⟩ := h.calm hR hrepr
  have hbumped : Bumped (fun _ => 0) f.db f₁.db := hdb ▸ Bumped.refl f.db
  obtain ⟨hrested, hsettles⟩ := hcalm n hn
  rw [hdb] at hsettles
  exact served_exec hR hrepr h.good hstretch hshort hok (hdb ▸ hn) hrested hbumped hsettles ht hends hend

/-- Two requests before one sync are one start. -/
theorem pair_restarted : ∃ f f' : System, ∃ n t, exec (fleetStep (fun _ => []) Settings.verbatim) f
      [.request (.restartTunnel t), .request (.restartTunnel t), ableSync n] = some f' ∧
    (f'.agents n).started t.val = (f.agents n).started t.val + 1 := by
  obtain ⟨f, hrun, hpair⟩ := exists_pair
  obtain ⟨f₁, hsettling⟩ := pair_settling hrun hpair
  obtain ⟨-, -, t, ht, hrunning, -, -, -, l, hl, d, -, hlid, -, -⟩ := id hpair
  refine ⟨f₁, _, l.token, t.id, rfl, ?_⟩
  have hstretch : ∀ a ∈ [Step.request (.restartTunnel t.id), .request (.restartTunnel t.id), ableSync l.token],
      Restarting able a := by
    simp only [List.forall_mem_cons]
    exact ⟨.inr ⟨t.id, rfl⟩, .inr ⟨t.id, rfl⟩, .inl ⟨l.token, _, _, rfl⟩, List.forall_mem_nil _⟩
  have hserved := (restarts_served floatPrints_verbatim reprPrints_nil hsettling (by simp [pairSteps]) hstretch rfl
    l hl t ht ⟨hrunning, .inl hlid⟩).1
  simpa [served, ableSync] using hserved

end Hawal.Fleet
