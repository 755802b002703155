import Hawal.Agent.Turns

/-!
# A tunnel that blocks the others

`sync_tunnels` asks for the answer, calls `apply_configs` and then looks at the nonce for restarts,
all in one `try`. Most of what can go wrong with an item is caught within its turn of the loop, but
a configuration file that cannot be written is not, and neither is a directory in the place of the
Hawal core that cannot be removed. What is raised there (`Turn.Raises`) ends the loop, the tunnels
that are missing from the list are not stopped, and the nonce is not looked at.

The other thing that the items have in common is the firewall. A turn finds the rules that the turns before it have
left. It deletes those of the port that the agent has its tunnel under and adds those that the item needs, whoever
else uses these ports (`Turn.Uses`).

`unblocked_iff` says that an item that raises stands in the way of the others, and that an item does not as long as
none raises and no other uses its ports. The turn of an item depends on its own tunnel and on the rules of its ports
only (`attempt_same`), so the loop treats two agents alike that agree on the tunnels of its items and on the rules of
their ports (`loop_agree`).
-/

namespace Hawal.Agent.Blocking

open Hawal.Lib Hawal.Lib.Python

variable (dumps : List Str → Str)

/-! ### A sync -/

/-- The loop of `apply_configs`, as far as it came. -/
structure Loop where
  agent : HawalAgent
  activeIds : List Str
  finished : Bool

/-- The loop of `apply_configs`. -/
def loop (s : HawalAgent) : List Turn → Loop
  | [] => ⟨s, [], true⟩
  | t :: ts =>
    let tried := attempt dumps s t
    if tried.2 then
      let rest := loop tried.1 ts
      { rest with activeIds := t.tunnelId :: rest.activeIds }
    else ⟨tried.1, [t.tunnelId], false⟩

/-- The rest of `apply_configs`: tunnels that are not active are stopped. -/
def stopRemoved (d : Str → Deletes) (active : List Str) (s : HawalAgent) : HawalAgent :=
  stopAll d s (s.processes.keys.filter fun tun => decide (tun ∉ active))

/-- The agent, with what `sync_tunnels` uses besides the tunnels. -/
structure SyncAgent where
  agent : HawalAgent
  agentRestartNonce : ℤ
  shutdownRequested : Bool

/-- What comes with the items of a sync answer. -/
structure Answer where
  agentRestartNonce : ℤ
  /-- The nonce can be written to its file. -/
  saved : Bool
  /-- The answers of `iptables -D` when a tunnel is stopped that is not in the list. -/
  deletes : Str → Deletes

/-- `sync_tunnels`. -/
def syncTunnels (s : SyncAgent) (ts : List Turn) (a : Answer) : SyncAgent :=
  let applied := loop dumps s.agent ts
  if applied.finished then
    let agent := stopRemoved a.deletes applied.activeIds applied.agent
    if a.agentRestartNonce > s.agentRestartNonce ∧ a.saved = true then
      { agent := agent, agentRestartNonce := a.agentRestartNonce, shutdownRequested := true }
    else { s with agent := agent }
  else { s with agent := applied.agent }

/-- A new agent, with the nonce from its file. -/
def SyncAgent.start (nonce : ℤ) : SyncAgent := ⟨HawalAgent.start, nonce, false⟩

/-- What happens to an agent. -/
inductive Happening where
  | sync (ts : List Turn) (a : Answer)
  /-- A process ends by itself. -/
  | died (pid : ℕ)

/-- One of these. -/
def step (s : SyncAgent) : Happening → Option SyncAgent
  | .sync ts a => some (syncTunnels dumps s ts a)
  | .died pid => some { s with agent := s.agent.kill pid }

variable {n : ℕ} {K : Str → Prop} {R : Rule → Prop} {s s' : HawalAgent}

/-! ### The loop -/

theorem loop_tidy (ts : List Turn) : ∀ {s : HawalAgent}, Tidy s →
    Tidy (loop dumps s ts).agent ∧ s.launches <+: (loop dumps s ts).agent.launches := by
  induction ts with
  | nil => exact fun h => ⟨h, List.prefix_rfl⟩
  | cons t ts ih =>
    intro s h
    obtain ⟨htidy, hlaunches⟩ := attempt_tidy dumps h t
    simp only [loop]
    split
    · obtain ⟨htidy', hlaunches'⟩ := ih htidy
      exact ⟨htidy', hlaunches.trans hlaunches'⟩
    · exact ⟨htidy, hlaunches⟩

/-- The loop leaves the tunnels that it has no item for. -/
theorem loop_other (ts : List Turn) : ∀ {s : HawalAgent}, Tidy s →
    Agree n (fun k => k ∉ ts.map Turn.tunnelId) (loop dumps s ts).agent s := by
  induction ts with
  | nil => exact fun _ => Agree.refl _
  | cons t ts ih =>
    intro s h k hk
    rw [List.map_cons, List.mem_cons, not_or] at hk
    have hfirst := attempt_agree (n := n) dumps h t k hk.1
    simp only [loop]
    split
    · exact (ih (attempt_tidy dumps h t).1 k hk.2).trans hfirst
    · exact hfirst

/-- The loop is the same in agents that agree on its tunnels and on the rules of the ports that its items use. -/
theorem loop_agree (ts : List Turn) : ∀ {s s' : HawalAgent}, Tidy s → Tidy s' → n ≤ s.launches.length →
    n ≤ s'.launches.length → Agree n K s s' → SameRules R s.rules s'.rules → (∀ t ∈ ts, K t.tunnelId) →
    (ts.map Turn.tunnelId).Nodup → (∀ t ∈ ts, ∀ p, t.Uses dumps s p → ∀ r ∈ paqetRules p, R r) →
      (loop dumps s ts).finished = (loop dumps s' ts).finished ∧
        (loop dumps s ts).activeIds = (loop dumps s' ts).activeIds ∧
          Agree n K (loop dumps s ts).agent (loop dumps s' ts).agent ∧
            SameRules R (loop dumps s ts).agent.rules (loop dumps s' ts).agent.rules := by
  induction ts with
  | nil => exact fun _ _ _ _ hagree hrules _ _ _ => ⟨rfl, rfl, hagree, hrules⟩
  | cons t ts ih =>
    intro s s' h h' hn hn' hagree hrules hK hnodup hR
    rw [List.forall_mem_cons] at hK hR
    rw [List.map_cons, List.nodup_cons] at hnodup
    obtain ⟨hflag, hown, hrules₁⟩ := attempt_same dumps h h' hn hn' hrules (hagree t.tunnelId hK.1) hR.1
    have hafter : Agree n K (attempt dumps s t).1 (attempt dumps s' t).1 := by
      intro k hk
      by_cases hkt : k = t.tunnelId
      · rw [hkt]
        exact hown
      · rw [attempt_agree dumps h t k hkt, attempt_agree dumps h' t k hkt]
        exact hagree k hk
    obtain ⟨htidy, hlaunches⟩ := attempt_tidy dumps h t
    obtain ⟨htidy', hlaunches'⟩ := attempt_tidy dumps h' t
    -- the later items use the same ports, for their tunnels are the same
    have hR₁ : ∀ u ∈ ts, ∀ p, u.Uses dumps (attempt dumps s t).1 p → ∀ r ∈ paqetRules p, R r := by
      intro u hu p huses
      have hut : u.tunnelId ≠ t.tunnelId := fun heq => hnodup.1 (heq ▸ List.mem_map_of_mem hu)
      exact hR.2 u hu p ((uses_congr dumps (attempt_agree (n := n) dumps h t _ hut) p).mp huses)
    simp only [loop, hflag]
    split
    · obtain ⟨hfinished, hactive, hrest, hrules₂⟩ := ih htidy htidy' (hn.trans hlaunches.length_le)
        (hn'.trans hlaunches'.length_le) hafter hrules₁ hK.2 hnodup.2 hR₁
      exact ⟨hfinished, by rw [hactive], hrest, hrules₂⟩
    · exact ⟨rfl, rfl, hafter, hrules₁⟩

/-- The loop runs to its end when no item raises. -/
theorem loop_finished (ts : List Turn) : ∀ {s : HawalAgent}, Tidy s → (ts.map Turn.tunnelId).Nodup →
    ((loop dumps s ts).finished = true ↔ ∀ t ∈ ts, ¬ t.Raises dumps s) := by
  induction ts with
  | nil => exact fun _ _ => iff_of_true rfl (by simp)
  | cons t ts ih =>
    intro s h hnodup
    rw [List.map_cons, List.nodup_cons] at hnodup
    rw [List.forall_mem_cons, ← attempt_flag, loop]
    split
    · rename_i hflag
      rw [and_iff_right hflag]
      refine (ih (attempt_tidy dumps h t).1 hnodup.2).trans (forall₂_congr fun u hu => not_congr ?_)
      have hut : u.tunnelId ≠ t.tunnelId := fun heq => hnodup.1 (heq ▸ List.mem_map_of_mem hu)
      exact raises_congr dumps (attempt_agree (n := 0) dumps h t _ hut)
    · rename_i hflag
      exact iff_of_false Bool.false_ne_true fun hall => hflag hall.1

/-- It has then been at every item. -/
theorem loop_activeIds (ts : List Turn) : ∀ {s : HawalAgent}, (loop dumps s ts).finished = true →
    (loop dumps s ts).activeIds = ts.map Turn.tunnelId := by
  induction ts with
  | nil => exact fun _ => rfl
  | cons t ts ih =>
    intro s hfinished
    rw [loop] at hfinished ⊢
    split at hfinished
    · rename_i hflag
      simp only [if_pos hflag, ih hfinished, List.map_cons]
    · cases hfinished

/-- The items of the turns, as `applyConfigs` has them. -/
def itemsOf (ts : List Turn) : List (Option Item × Outcome) := given (ts.map fun t => (t.item, t.outcome))

theorem attempt_removed {t : Turn} (hremoved : t.removed = true) :
    attempt dumps s t = applyItem dumps s t.item t.outcome := by
  unfold attempt
  rw [hremoved]
  cases t.item.job <;> rfl

/-- When no directory is in the way it is the loop that `applyConfigs` has. -/
theorem loop_removed (ts : List Turn) : ∀ {s : HawalAgent}, (∀ t ∈ ts, t.removed = true) →
    applyItems dumps s (itemsOf ts) = ((loop dumps s ts).agent, (loop dumps s ts).finished) := by
  induction ts with
  | nil => exact fun _ => rfl
  | cons t ts ih =>
    intro s h
    rw [List.forall_mem_cons] at h
    have hitems : itemsOf (t :: ts) = (some t.item, t.outcome) :: itemsOf ts := rfl
    rw [hitems, applyItems, loop, ← attempt_removed dumps h.1]
    dsimp only
    split
    · exact ih h.2
    · rename_i hflag
      rw [Bool.not_eq_true] at hflag
      exact Prod.ext rfl hflag

/-- And `sync_tunnels` does to the agent what `applyConfigs` does. -/
theorem syncTunnels_removed {x : SyncAgent} {ts : List Turn} (h : ∀ t ∈ ts, t.removed = true) (a : Answer) :
    (syncTunnels dumps x ts a).agent = applyConfigs dumps x.agent (itemsOf ts) a.deletes := by
  have hids : activeIds (itemsOf ts) = ts.map Turn.tunnelId := by
    rw [itemsOf, activeIds_given, List.map_map]
    rfl
  simp only [syncTunnels, applyConfigs, loop_removed dumps ts h, hids]
  split
  · rename_i hfinished
    rw [loop_activeIds dumps ts hfinished]
    split <;> rfl
  · rfl

theorem loop_append (pre ts : List Turn) : ∀ s : HawalAgent, loop dumps s (pre ++ ts) =
    if (loop dumps s pre).finished = true then
      { loop dumps (loop dumps s pre).agent ts with
        activeIds := (loop dumps s pre).activeIds ++ (loop dumps (loop dumps s pre).agent ts).activeIds }
    else loop dumps s pre := by
  induction pre with
  | nil => exact fun s => rfl
  | cons t pre ih =>
    intro s
    simp only [List.cons_append, loop]
    by_cases hflag : (attempt dumps s t).2 = true
    · simp only [if_pos hflag, ih]
      split <;> rfl
    · simp only [if_neg hflag, Bool.false_eq_true, if_false]

/-! ### Tunnels that are no longer in the list -/

theorem stopAll_tunnel (d : Str → Deletes) (tuns : List Str) : ∀ {s : HawalAgent}, Tidy s →
    Agree n (fun k => k ∉ tuns) (stopAll d s tuns) s := by
  induction tuns with
  | nil => exact fun _ => Agree.refl _
  | cons tun tuns ih =>
    intro s h k hk
    rw [List.mem_cons, not_or] at hk
    have hw := stop_without h tun (d tun)
    have hdoes : Does s (s.stop tun (d tun)) tun none := .inr (.inl hw)
    exact (ih (h.without hw) k hk.2).trans (tunnel_other h hdoes hk.1)

theorem stopRemoved_tunnel (h : Tidy s) (d : Str → Deletes) (active : List Str) :
    Agree n (fun k => k ∈ active) (stopRemoved d active s) s := by
  intro k hk
  refine stopAll_tunnel d _ h k fun hmem => ?_
  rw [List.mem_filter, decide_eq_true_eq] at hmem
  exact hmem.2 hk

theorem stopRemoved_gone (h : Tidy s) (d : Str → Deletes) {active : List Str} {k : Str} (hk : k ∉ active) :
    (stopRemoved d active s).processes.lookup k = none := by
  by_cases hkey : k ∈ s.processes.keys
  · exact stopAll_gone d h (List.mem_filter.mpr ⟨hkey, decide_eq_true hk⟩)
  · rw [mem_keys, not_not] at hkey
    refine (stopAll_untouched d h fun hmem => ?_).processes.trans hkey
    exact mem_keys.mp (List.mem_filter.mp hmem).1 hkey

/-- The loop keeps the order of the tunnels that it has no item for. -/
theorem unlisted_loop {ids : List Str} (ts : List Turn) : ∀ s : HawalAgent, (∀ t ∈ ts, t.tunnelId ∈ ids) →
    unlisted ids (loop dumps s ts).agent = unlisted ids s := by
  induction ts with
  | nil => exact fun _ _ => rfl
  | cons t ts ih =>
    intro s hids
    rw [List.forall_mem_cons] at hids
    have hfirst : unlisted ids (attempt dumps s t).1 = unlisted ids s := by
      unfold attempt
      split
      · rfl
      · exact unlisted_applyItem dumps hids.1 s rfl t.outcome
    rw [loop]
    dsimp only
    split
    · exact (ih _ hids.2).trans hfirst
    · exact hfirst

/-! ### One item and the others -/

/-- The others are applied as if the item were not there: the loop comes to the same of them, makes the same of their
tunnels, and the firewall has the same rules of the ports that they use. -/
structure OthersApplied (x : SyncAgent) (pre : List Turn) (t : Turn) (post : List Turn) (a : Answer) : Prop where
  came : ∀ u ∈ pre ++ post, (u.tunnelId ∈ (loop dumps x.agent (pre ++ t :: post)).activeIds ↔
    u.tunnelId ∈ (loop dumps x.agent (pre ++ post)).activeIds)
  tunnels : ∀ u ∈ pre ++ post,
    tunnel x.agent.launches.length (syncTunnels dumps x (pre ++ t :: post) a).agent u.tunnelId =
      tunnel x.agent.launches.length (syncTunnels dumps x (pre ++ post) a).agent u.tunnelId
  rules : ∀ u ∈ pre ++ post, ∀ p, u.Uses dumps x.agent p → ∀ r ∈ paqetRules p,
    (r ∈ (syncTunnels dumps x (pre ++ t :: post) a).agent.rules ↔
      r ∈ (syncTunnels dumps x (pre ++ post) a).agent.rules)

/-- A tracked tunnel that is missing from the list is stopped. -/
def RemovedStopped (x : SyncAgent) (ts : List Turn) (a : Answer) : Prop :=
  ∀ k pid, x.agent.processes.lookup k = some pid → k ∉ ts.map Turn.tunnelId →
    (syncTunnels dumps x ts a).agent.processes.lookup k = none ∧ pid ∉ (syncTunnels dumps x ts a).agent.alive

/-- A restart that is requested is honoured, when its nonce can be written. -/
def RestartHonoured (x : SyncAgent) (ts : List Turn) (a : Answer) : Prop :=
  a.agentRestartNonce > x.agentRestartNonce → a.saved = true →
    (syncTunnels dumps x ts a).agentRestartNonce = a.agentRestartNonce ∧
      (syncTunnels dumps x ts a).shutdownRequested = true

/-- An item does not block the others. -/
structure Unblocked (x : SyncAgent) (pre : List Turn) (t : Turn) (post : List Turn) (a : Answer) : Prop where
  others : OthersApplied dumps x pre t post a
  removed : RemovedStopped dumps x (pre ++ t :: post) a
  restart : RestartHonoured dumps x (pre ++ t :: post) a

/-- Nothing is left to do when the loop ends early. -/
structure NothingLeft (x : SyncAgent) (pre : List Turn) (t : Turn) (post : List Turn) (a : Answer) : Prop where
  /-- No tracked tunnel is missing from the list. -/
  listed : ∀ k pid, x.agent.processes.lookup k = some pid → k ∈ (pre ++ t :: post).map Turn.tunnelId
  /-- No restart is requested, or its nonce could not be written. -/
  restart : a.agentRestartNonce > x.agentRestartNonce → ¬ a.saved = true
  /-- An item that raises is the last one, or another raises before it. -/
  last : t.Raises dumps x.agent → post = [] ∨ ∃ u ∈ pre, u.Raises dumps x.agent

variable {t : Turn} {pre post ts : List Turn} {x : SyncAgent}

theorem sync_agent (x : SyncAgent) (ts : List Turn) (a : Answer) : (syncTunnels dumps x ts a).agent =
    if (loop dumps x.agent ts).finished = true then
      stopRemoved a.deletes (loop dumps x.agent ts).activeIds (loop dumps x.agent ts).agent
    else (loop dumps x.agent ts).agent := by
  simp only [syncTunnels]
  split
  · split <;> rfl
  · rfl

theorem sync_tidy (h : Tidy x.agent) (ts : List Turn) (a : Answer) : Tidy (syncTunnels dumps x ts a).agent ∧
    x.agent.launches <+: (syncTunnels dumps x ts a).agent.launches := by
  obtain ⟨htidy, hlaunches⟩ := loop_tidy dumps ts h
  rw [sync_agent dumps]
  split
  · obtain ⟨htidy', hlaunches'⟩ := stopAll_tidy a.deletes ((loop dumps x.agent ts).agent.processes.keys.filter
      fun tun => decide (tun ∉ (loop dumps x.agent ts).activeIds)) htidy
    exact ⟨htidy', hlaunches.trans (hlaunches' ▸ List.prefix_rfl)⟩
  · exact ⟨htidy, hlaunches⟩

/-- A restart is honoured when the loop runs to its end. -/
theorem restart_iff (x : SyncAgent) (ts : List Turn) (a : Answer) :
    RestartHonoured dumps x ts a ↔
      (loop dumps x.agent ts).finished = true ∨ (a.agentRestartNonce > x.agentRestartNonce → ¬ a.saved = true) := by
  by_cases hfinished : (loop dumps x.agent ts).finished = true
  · refine iff_of_true (fun hnew hsaved => ?_) (.inl hfinished)
    simp only [syncTunnels, if_pos hfinished, if_pos (And.intro hnew hsaved), and_self]
  · rw [or_iff_right hfinished]
    refine forall₂_congr fun hnew hsaved => iff_of_false (fun hdone => ?_) id
    have hsame : (syncTunnels dumps x ts a).agentRestartNonce = x.agentRestartNonce := by
      simp only [syncTunnels, if_neg hfinished]
    have heq := hdone.1
    omega

/-- Tunnels that are missing are stopped when the loop runs to its end. -/
theorem removed_iff (h : Tidy x.agent) (ts : List Turn) (a : Answer) :
    RemovedStopped dumps x ts a ↔
      (loop dumps x.agent ts).finished = true ∨
        ∀ k pid, x.agent.processes.lookup k = some pid → k ∈ ts.map Turn.tunnelId := by
  obtain ⟨htidy, hlaunches⟩ := sync_tidy dumps h ts a
  by_cases hfinished : (loop dumps x.agent ts).finished = true
  · refine iff_of_true (fun k pid hk hmissing => ?_) (.inl hfinished)
    have hgone : (syncTunnels dumps x ts a).agent.processes.lookup k = none := by
      rw [sync_agent dumps, if_pos hfinished]
      refine stopRemoved_gone (loop_tidy dumps ts h).1 a.deletes ?_
      rwa [loop_activeIds dumps ts hfinished]
    refine ⟨hgone, fun halive => ?_⟩
    -- a process that runs is tracked by the tunnel it was launched for
    obtain ⟨k', hk'⟩ := htidy.alive pid halive
    obtain ⟨l, hl, hid, -⟩ := h.tracked k pid hk
    obtain ⟨l', hl', hid', -⟩ := htidy.tracked k' pid hk'
    obtain ⟨more, hmore⟩ := hlaunches
    rw [← hmore, List.getElem?_append_left (h.lt hk), hl, Option.some.injEq] at hl'
    subst hl'
    rw [← hid', hid, hgone] at hk'
    cases hk'
  · rw [or_iff_right hfinished]
    refine forall₃_congr fun k pid hk => ⟨fun hstopped => ?_, fun hmem hmissing => absurd hmem hmissing⟩
    by_contra hmissing
    have hkept : (syncTunnels dumps x ts a).agent.processes.lookup k ≠ none := by
      have hsame := congrArg Kept.process (loop_other (n := 0) dumps ts h k hmissing)
      rw [sync_agent dumps, if_neg hfinished]
      intro hnone
      simp [tunnel, hnone, hk] at hsame
    exact hkept (hstopped hmissing).1

/-- The end of a sync leaves the tunnels of the list. -/
theorem sync_tunnel (h : Tidy x.agent) (ts : List Turn) (a : Answer) :
    Agree n (fun k => k ∈ ts.map Turn.tunnelId) (syncTunnels dumps x ts a).agent (loop dumps x.agent ts).agent := by
  intro k hk
  rw [sync_agent dumps]
  split
  · rename_i hfinished
    refine stopRemoved_tunnel (loop_tidy dumps ts h).1 a.deletes _ k ?_
    rwa [loop_activeIds dumps ts hfinished]
  · rfl

theorem head_activeIds (s : HawalAgent) (t : Turn) (ts : List Turn) :
    t.tunnelId ∈ (loop dumps s (t :: ts)).activeIds := by
  rw [loop]
  dsimp only
  split <;> simp

/-- When an earlier item raises it does not matter what comes after it. -/
theorem sync_of_raised (hraised : (loop dumps x.agent pre).finished = false) (ts : List Turn) (a : Answer) :
    loop dumps x.agent (pre ++ ts) = loop dumps x.agent pre ∧
      (syncTunnels dumps x (pre ++ ts) a).agent = (loop dumps x.agent pre).agent := by
  have hloop : loop dumps x.agent (pre ++ ts) = loop dumps x.agent pre := by
    rw [loop_append, hraised, if_neg Bool.false_ne_true]
  refine ⟨hloop, ?_⟩
  rw [sync_agent dumps, hloop, hraised, if_neg Bool.false_ne_true]

theorem others_of_raised (hraised : (loop dumps x.agent pre).finished = false) (a : Answer) :
    OthersApplied dumps x pre t post a := by
  obtain ⟨hloop, hsync⟩ := sync_of_raised dumps hraised (t :: post) a
  obtain ⟨hloop', hsync'⟩ := sync_of_raised dumps hraised post a
  refine ⟨fun u _ => ?_, fun u _ => ?_, fun u _ p _ r _ => ?_⟩
  · rw [hloop, hloop']
  · rw [hsync, hsync']
  · rw [hsync, hsync']

/-- A rule of a port that one of these items uses. -/
def Theirs (s : HawalAgent) (us : List Turn) (r : Rule) : Prop := ∃ u ∈ us, ∃ p, u.Uses dumps s p ∧ r ∈ paqetRules p

/-- The rules of the ports that an item uses are none of the others'. -/
theorem Apart.not_theirs {us : List Turn} (h : Apart dumps s t us) :
    ∀ p, t.Uses dumps s p → ∀ r ∈ paqetRules p, ¬ Theirs dumps s us r := by
  rintro p huses r hr ⟨u, hu, q, huses', hr'⟩
  rw [paqetRules_disjoint hr hr'] at huses
  exact h u hu q huses' huses

/-- It is enough to look at the tunnels where the loop ends. -/
theorem sync_tunnels_iff (h : Tidy x.agent) {a : Answer} {u : Turn} (hu : u ∈ pre ++ post) :
    tunnel n (syncTunnels dumps x (pre ++ t :: post) a).agent u.tunnelId =
        tunnel n (syncTunnels dumps x (pre ++ post) a).agent u.tunnelId ↔
      tunnel n (loop dumps x.agent (pre ++ t :: post)).agent u.tunnelId =
        tunnel n (loop dumps x.agent (pre ++ post)).agent u.tunnelId := by
  have hlisted : u ∈ pre ++ t :: post := by
    rw [List.mem_append] at hu ⊢
    exact hu.imp_right (List.mem_cons_of_mem t)
  rw [sync_tunnel dumps h _ a _ (List.mem_map_of_mem hlisted), sync_tunnel dumps h _ a _ (List.mem_map_of_mem hu)]

section Apart

/-! The tunnel of the item `t` is none of the others. -/

variable (h : Tidy x.agent) (hne : ∀ u ∈ pre ++ post, u.tunnelId ≠ t.tunnelId)
include h hne

/-- The item uses the same ports when the loop comes to it. -/
theorem uses_reached (p : ℤ) : t.Uses dumps (loop dumps x.agent pre).agent p ↔ t.Uses dumps x.agent p := by
  refine uses_congr dumps (loop_other (n := 0) dumps pre h t.tunnelId fun hmem => ?_) p
  obtain ⟨u, hu, hid⟩ := List.mem_map.mp hmem
  exact hne u (List.mem_append_left _ hu) hid

variable (hapart : Apart dumps x.agent t (pre ++ post))
include hapart

/-- The turn of the item leaves the rules of the others. -/
theorem attempt_reached : SameRules (Theirs dumps x.agent (pre ++ post))
    (attempt dumps (loop dumps x.agent pre).agent t).1.rules (loop dumps x.agent pre).agent.rules := by
  refine attempt_other dumps fun p huses => ?_
  exact Apart.not_theirs dumps hapart p ((uses_reached dumps h hne p).mp huses)

/-- Stopping what is missing leaves the rules of the others too, also where the item's tunnel is missing. -/
theorem stopRemoved_same {s : HawalAgent} {d : Str → Deletes}
    (hagree : ∀ k, k ≠ t.tunnelId → s.metadata.lookup k = (loop dumps x.agent (pre ++ post)).agent.metadata.lookup k)
    (hrules : SameRules (Theirs dumps x.agent (pre ++ post)) s.rules (loop dumps x.agent (pre ++ post)).agent.rules) :
    SameRules (Theirs dumps x.agent (pre ++ post))
      (stopAll d s (unlisted ((pre ++ t :: post).map Turn.tunnelId) x.agent)).rules
      (stopRemoved d ((pre ++ post).map Turn.tunnelId) (loop dumps x.agent (pre ++ post)).agent).rules := by
  have hown : t.tunnelId ∉ (pre ++ post).map Turn.tunnelId := fun hmem => by
    obtain ⟨u, hu, hid⟩ := List.mem_map.mp hmem
    exact hne u hu hid
  have hkeys : unlisted ((pre ++ t :: post).map Turn.tunnelId) x.agent =
      (unlisted ((pre ++ post).map Turn.tunnelId) (loop dumps x.agent (pre ++ post)).agent).filter
        fun tun => decide (tun ≠ t.tunnelId) := by
    have hids : ∀ u ∈ pre ++ post, u.tunnelId ∈ (pre ++ t :: post).map Turn.tunnelId := by
      intro u hu
      refine List.mem_map_of_mem ?_
      rw [List.mem_append] at hu ⊢
      exact hu.imp_right (List.mem_cons_of_mem t)
    rw [← unlisted_loop dumps (pre ++ post) x.agent hids, unlisted, unlisted, List.filter_filter]
    refine List.filter_congr fun k _ => ?_
    simp only [List.map_append, List.map_cons, List.mem_append, List.mem_cons, not_or, Bool.decide_and, ne_eq]
    grind
  rw [hkeys]
  refine stopAll_same d _ hrules hagree fun p hp => Apart.not_theirs dumps hapart p (.inl ?_)
  rw [HawalAgent.port, metadata_congr (loop_other (n := 0) dumps (pre ++ post) h t.tunnelId hown)] at hp
  exact hp

end Apart

section Reached

/-! The loop comes to the item `t`. -/

variable (hpre : (loop dumps x.agent pre).finished = true)
include hpre

theorem loop_reached (ts : List Turn) : loop dumps x.agent (pre ++ ts) =
    { loop dumps (loop dumps x.agent pre).agent ts with
      activeIds := pre.map Turn.tunnelId ++ (loop dumps (loop dumps x.agent pre).agent ts).activeIds } := by
  rw [loop_append, if_pos hpre, loop_activeIds dumps pre hpre]

/-- When the item raises, the loop ends with it. -/
theorem loop_stops (hflag : ¬ (attempt dumps (loop dumps x.agent pre).agent t).2 = true) :
    loop dumps x.agent (pre ++ t :: post) =
      ⟨(attempt dumps (loop dumps x.agent pre).agent t).1, pre.map Turn.tunnelId ++ [t.tunnelId], false⟩ := by
  rw [loop_reached dumps hpre, loop]
  simp only [if_neg hflag]

/-- When it does not, the loop goes on from what the item has left. -/
theorem loop_goes (hflag : (attempt dumps (loop dumps x.agent pre).agent t).2 = true) :
    loop dumps x.agent (pre ++ t :: post) =
      { loop dumps (attempt dumps (loop dumps x.agent pre).agent t).1 post with
        activeIds := pre.map Turn.tunnelId ++
          t.tunnelId :: (loop dumps (attempt dumps (loop dumps x.agent pre).agent t).1 post).activeIds } := by
  rw [loop_reached dumps hpre, loop]
  simp only [if_pos hflag]

variable (hne : ∀ u ∈ pre ++ post, u.tunnelId ≠ t.tunnelId)
include hne

/-- When the item raises, the loop comes to no other after it. -/
theorem eq_nil_of_others {a : Answer} (hothers : OthersApplied dumps x pre t post a)
    (hdisjoint : (post.map Turn.tunnelId).Disjoint (pre.map Turn.tunnelId))
    (hflag : ¬ (attempt dumps (loop dumps x.agent pre).agent t).2 = true) : post = [] := by
  cases post with
  | nil => rfl
  | cons u post =>
    have hu : u ∈ pre ++ u :: post := List.mem_append_right _ List.mem_cons_self
    have hcame := hothers.came u hu
    rw [loop_stops dumps hpre hflag, loop_reached dumps hpre] at hcame
    have hwould : u.tunnelId ∈ pre.map Turn.tunnelId ++
        (loop dumps (loop dumps x.agent pre).agent (u :: post)).activeIds :=
      List.mem_append_right _ (head_activeIds dumps _ u post)
    have hdoes := hcame.mpr hwould
    rw [List.mem_append, List.mem_singleton] at hdoes
    exact absurd hdoes (not_or.mpr ⟨hdisjoint List.mem_cons_self, hne u hu⟩)

variable (h : Tidy x.agent) (hapart : Apart dumps x.agent t (pre ++ post))
include h hapart

/-- An item that does not raise leaves the others as they are. -/
theorem others_of_pass (hnodup : (post.map Turn.tunnelId).Nodup)
    (hdisjoint : (post.map Turn.tunnelId).Disjoint (pre.map Turn.tunnelId))
    (hflag : (attempt dumps (loop dumps x.agent pre).agent t).2 = true) (a : Answer) :
    OthersApplied dumps x pre t post a := by
  obtain ⟨htidy, hlaunches⟩ := loop_tidy dumps pre h
  obtain ⟨htidy', hlaunches'⟩ := attempt_tidy dumps htidy t
  have hgoes : loop dumps x.agent (pre ++ t :: post) = _ := loop_goes dumps hpre hflag
  have hreached := loop_reached dumps hpre post
  -- the items after it use the ports that they use at first
  have hR : ∀ u ∈ post, ∀ p, u.Uses dumps (attempt dumps (loop dumps x.agent pre).agent t).1 p →
      ∀ r ∈ paqetRules p, Theirs dumps x.agent (pre ++ post) r := by
    intro u hu p huses r hr
    have hother : u.tunnelId ∉ pre.map Turn.tunnelId := hdisjoint (List.mem_map_of_mem hu)
    have hsame := (attempt_agree (n := 0) dumps htidy t u.tunnelId (hne u (List.mem_append_right _ hu))).trans
      (loop_other dumps pre h u.tunnelId hother)
    exact ⟨u, List.mem_append_right _ hu, p, (uses_congr dumps hsame p).mp huses, hr⟩
  obtain ⟨hfinished, hids, hagree, hrules⟩ := loop_agree dumps post htidy' htidy
    (hlaunches.trans hlaunches').length_le hlaunches.length_le (attempt_agree dumps htidy t)
    (attempt_reached dumps h hne hapart) (fun u hu => hne u (List.mem_append_right _ hu)) hnodup hR
  refine ⟨fun u hu => ?_, fun u hu => ?_, fun u hu p huses r hr => ?_⟩
  · rw [hgoes, hreached]
    simp only [hids, List.mem_append, List.mem_cons, hne u hu, false_or]
  · rw [sync_tunnels_iff dumps h hu, hgoes, hreached]
    exact hagree u.tunnelId (hne u hu)
  · refine SameRules.mem_iff (R := Theirs dumps x.agent (pre ++ post)) ?_ ⟨u, hu, p, huses, hr⟩
    have hends : (loop dumps x.agent (pre ++ t :: post)).finished = (loop dumps x.agent (pre ++ post)).finished := by
      rw [hgoes, hreached]
      exact hfinished
    have hloops : SameRules (Theirs dumps x.agent (pre ++ post)) (loop dumps x.agent (pre ++ t :: post)).agent.rules
        (loop dumps x.agent (pre ++ post)).agent.rules := by
      rw [hgoes, hreached]
      exact hrules
    rw [sync_agent dumps, sync_agent dumps, hends]
    split
    · rename_i hdone
      rw [loop_activeIds dumps _ hdone, loop_activeIds dumps _ (hends.trans hdone)]
      have hkeys : unlisted ((pre ++ t :: post).map Turn.tunnelId) (loop dumps x.agent (pre ++ t :: post)).agent =
          unlisted ((pre ++ t :: post).map Turn.tunnelId) x.agent :=
        unlisted_loop dumps _ x.agent fun u hu => List.mem_map_of_mem hu
      have hstopped := stopRemoved_same dumps h hne hapart (d := a.deletes) (fun k hk => ?_) hloops
      · rw [← hkeys] at hstopped
        exact hstopped
      · rw [hgoes, hreached]
        exact metadata_congr (hagree k hk)
    · exact hloops

/-- An item that raises leaves the others as they are when it is the last and nothing is to be stopped. -/
theorem others_of_last (hflag : ¬ (attempt dumps (loop dumps x.agent pre).agent t).2 = true) (hpost : post = [])
    (hlisted : ∀ k pid, x.agent.processes.lookup k = some pid → k ∈ (pre ++ t :: post).map Turn.tunnelId)
    (a : Answer) : OthersApplied dumps x pre t post a := by
  subst hpost
  obtain ⟨htidy, -⟩ := loop_tidy dumps pre h
  have hstops : loop dumps x.agent (pre ++ [t]) = _ := loop_stops dumps hpre hflag
  have hnil : unlisted ((pre ++ [t]).map Turn.tunnelId) x.agent = [] := by
    refine List.filter_eq_nil_iff.mpr fun k hk => ?_
    obtain ⟨pid, hpid⟩ := Option.ne_none_iff_exists'.mp (mem_keys.mp hk)
    exact fun hmissing => of_decide_eq_true hmissing (hlisted k pid hpid)
  have hagree := fun k hk => attempt_agree (n := x.agent.launches.length) dumps htidy t k hk
  refine ⟨fun u hu => ?_, fun u hu => ?_, fun u hu p huses r hr => ?_⟩
  · have hmem : u.tunnelId ∈ pre.map Turn.tunnelId := List.mem_map_of_mem (List.append_nil pre ▸ hu)
    rw [hstops, loop_reached dumps hpre]
    exact iff_of_true (List.mem_append_left _ hmem) (List.mem_append_left _ hmem)
  · rw [sync_tunnels_iff dumps h hu, hstops, List.append_nil]
    exact hagree u.tunnelId (hne u hu)
  · refine SameRules.mem_iff (R := Theirs dumps x.agent (pre ++ [])) ?_ ⟨u, hu, p, huses, hr⟩
    have hattempt := attempt_reached dumps h hne hapart
    have hdone : (loop dumps x.agent (pre ++ [])).finished = true := (List.append_nil pre).symm ▸ hpre
    have hstopped := stopRemoved_same dumps h hne hapart (d := a.deletes)
      (s := (attempt dumps (loop dumps x.agent pre).agent t).1) (fun k hk => ?_) ?_
    · rw [hnil] at hstopped
      rw [sync_agent dumps, sync_agent dumps, hstops, if_neg Bool.false_ne_true, if_pos hdone,
        loop_activeIds dumps _ hdone]
      exact hstopped
    · rw [List.append_nil]
      exact metadata_congr (hagree k hk)
    · rw [List.append_nil] at hattempt ⊢
      exact hattempt

end Reached

/-- What is known of an item whose tunnel is none of the others. -/
theorem of_nodup (hnodup : ((pre ++ t :: post).map Turn.tunnelId).Nodup) :
    (∀ u ∈ pre ++ post, u.tunnelId ≠ t.tunnelId) ∧ (pre.map Turn.tunnelId).Nodup ∧ (post.map Turn.tunnelId).Nodup ∧
      (post.map Turn.tunnelId).Disjoint (pre.map Turn.tunnelId) := by
  rw [List.map_append, List.map_cons, List.nodup_middle, ← List.map_append, List.nodup_cons] at hnodup
  obtain ⟨hown, hothers⟩ := hnodup
  rw [List.map_append, List.nodup_append'] at hothers
  obtain ⟨hpre, hpost, hdisjoint⟩ := hothers
  exact ⟨fun u hu heq => hown (heq ▸ List.mem_map_of_mem hu), hpre, hpost,
    List.disjoint_left.mpr fun _ hpost hpre => hdisjoint hpre hpost⟩

theorem flag_iff (h : Tidy x.agent) (hturn : t.tunnelId ∉ pre.map Turn.tunnelId) :
    (attempt dumps (loop dumps x.agent pre).agent t).2 = true ↔ ¬ t.Raises dumps x.agent := by
  rw [attempt_flag, raises_congr dumps (loop_other (n := 0) dumps pre h t.tunnelId hturn)]

/-- Where the others are applied, an item that raises comes after another or is the last. -/
theorem last_of_others (h : Tidy x.agent) (hnodup : ((pre ++ t :: post).map Turn.tunnelId).Nodup) {a : Answer}
    (hothers : OthersApplied dumps x pre t post a) (hr : t.Raises dumps x.agent) :
    post = [] ∨ ∃ u ∈ pre, u.Raises dumps x.agent := by
  obtain ⟨hne, hpre, -, hdisjoint⟩ := of_nodup hnodup
  have hturn : t.tunnelId ∉ pre.map Turn.tunnelId := fun hmem => by
    obtain ⟨u, hu, hid⟩ := List.mem_map.mp hmem
    exact hne u (List.mem_append_left _ hu) hid
  refine or_iff_not_imp_right.mpr fun hquiet => ?_
  have hfinished := (loop_finished dumps pre h hpre).mpr fun u hu hru => hquiet ⟨u, hu, hru⟩
  exact eq_nil_of_others dumps hfinished hne hothers hdisjoint fun hpass => (flag_iff dumps h hturn).mp hpass hr

/-- Items that share no port with the item are applied when it does not raise, and where nothing is left to do. -/
theorem others_of_apart (h : Tidy x.agent) (hnodup : ((pre ++ t :: post).map Turn.tunnelId).Nodup) (a : Answer)
    (hapart : Apart dumps x.agent t (pre ++ post))
    (hcond : (∀ u ∈ pre ++ t :: post, ¬ u.Raises dumps x.agent) ∨ NothingLeft dumps x pre t post a) :
    OthersApplied dumps x pre t post a := by
  obtain ⟨hne, hpre, hpost, hdisjoint⟩ := of_nodup hnodup
  have hturn : t.tunnelId ∉ pre.map Turn.tunnelId := fun hmem => by
    obtain ⟨u, hu, hid⟩ := List.mem_map.mp hmem
    exact hne u (List.mem_append_left _ hu) hid
  have hraises := loop_finished dumps pre h hpre
  by_cases hfinished : (loop dumps x.agent pre).finished = true
  · by_cases hflag : (attempt dumps (loop dumps x.agent pre).agent t).2 = true
    · exact others_of_pass dumps hfinished hne h hapart hpost hdisjoint hflag a
    · have hr : t.Raises dumps x.agent := not_not.mp fun hr => hflag ((flag_iff dumps h hturn).mpr hr)
      rcases hcond with hquiet | ⟨hlisted, -, hlast⟩
      · exact absurd hr (hquiet t (List.mem_append_right _ List.mem_cons_self))
      · have hnone : ¬ ∃ u ∈ pre, u.Raises dumps x.agent := fun ⟨u, hu, hru⟩ => hraises.mp hfinished u hu hru
        exact others_of_last dumps hfinished hne h hapart hflag ((hlast hr).resolve_right hnone) hlisted a
  · exact others_of_raised dumps (Bool.not_eq_true _ ▸ hfinished) a

/-- Being in nobody's way takes that no item raises or that nothing is left to do. -/
theorem quiet_of_unblocked (h : Tidy x.agent) (hnodup : ((pre ++ t :: post).map Turn.tunnelId).Nodup) {a : Answer}
    (hunblocked : Unblocked dumps x pre t post a) :
    (∀ u ∈ pre ++ t :: post, ¬ u.Raises dumps x.agent) ∨ NothingLeft dumps x pre t post a := by
  obtain ⟨hothers, hremoved, hrestart⟩ := hunblocked
  rw [removed_iff dumps h, loop_finished dumps _ h hnodup] at hremoved
  rw [restart_iff dumps, loop_finished dumps _ h hnodup] at hrestart
  by_cases hquiet : ∀ u ∈ pre ++ t :: post, ¬ u.Raises dumps x.agent
  · exact .inl hquiet
  · exact .inr ⟨hremoved.resolve_left hquiet, hrestart.resolve_left hquiet, last_of_others dumps h hnodup hothers⟩

/-- And that is enough among items that do not share its ports. -/
theorem unblocked_of_apart (h : Tidy x.agent) (hnodup : ((pre ++ t :: post).map Turn.tunnelId).Nodup) (a : Answer)
    (hapart : Apart dumps x.agent t (pre ++ post))
    (hcond : (∀ u ∈ pre ++ t :: post, ¬ u.Raises dumps x.agent) ∨ NothingLeft dumps x pre t post a) :
    Unblocked dumps x pre t post a := by
  refine ⟨others_of_apart dumps h hnodup a hapart hcond, (removed_iff dumps h _ a).mpr ?_,
    (restart_iff dumps x _ a).mpr ?_⟩
  · rw [loop_finished dumps _ h hnodup]
    exact hcond.imp_right NothingLeft.listed
  · rw [loop_finished dumps _ h hnodup]
    exact hcond.imp_right NothingLeft.restart

/-! ### Runs -/

theorem step_tidy (h : Tidy x.agent) (e : Happening) {x' : SyncAgent} (hstep : step dumps x e = some x') :
    Tidy x'.agent := by
  cases e with
  | sync ts a =>
    cases hstep
    exact (sync_tidy dumps h ts a).1
  | died pid =>
    cases hstep
    exact h.kill pid

theorem run_tidy {nonce : ℤ} {es : List Happening} (hrun : exec (step dumps) (SyncAgent.start nonce) es = some x) :
    Tidy x.agent :=
  exec_inv (fun _ e _ h hstep => step_tidy dumps h e hstep) tidy_start hrun

/-- No restart is requested. -/
def keeping : Answer := ⟨0, true, fun _ _ => none⟩

/-- The server of a Paqet tunnel. -/
def paqetServer (tun : String) (corePort : ℤ) (o : Outcome) : Turn :=
  ⟨⟨str tun, 0, .paqet (some (str "role: server")) (str "server") corePort⟩, o, true⟩

/-- `iptables -A` fails. -/
def notAdding : Outcome := { launching true with adds := fun _ => false }

/-- The network of the machine is not found when the turn of this server comes. -/
def unfoundServer : Turn := paqetServer "tun_1" 9999 { launching true with network := none }

/-- Another server on the same port, whose rules cannot be added. -/
def sharingServer : Turn := paqetServer "tun_2" 9999 notAdding

/-- The first is stopped and takes the rules with it. Without it the other finds them, and starts. -/
theorem sharedPort_blocks : ∃ x,
    exec (step plainDumps) (SyncAgent.start 0) [.sync [paqetServer "tun_1" 9999 (launching true)] keeping] = some x ∧
      (∀ u ∈ [unfoundServer, sharingServer], ¬ u.Raises plainDumps x.agent) ∧
      ¬ OthersApplied plainDumps x [] unfoundServer [sharingServer] keeping := by
  obtain ⟨x, hrun, hwithout, hwith⟩ : ∃ x,
      exec (step plainDumps) (SyncAgent.start 0) [.sync [paqetServer "tun_1" 9999 (launching true)] keeping] = some x ∧
        (tunnel x.agent.launches.length (syncTunnels plainDumps x ([] ++ [sharingServer]) keeping).agent
          sharingServer.tunnelId).process.isSome = true ∧
        (tunnel x.agent.launches.length (syncTunnels plainDumps x ([] ++ [unfoundServer, sharingServer]) keeping).agent
          sharingServer.tunnelId).process.isSome = false :=
    exists_of_any (by decide +kernel)
  refine ⟨x, hrun, ?_, fun hothers => ?_⟩
  · simp [unfoundServer, sharingServer, paqetServer, notAdding, launching, Turn.Raises, Turn.Unwritten, Item.offer]
  · rw [hothers.tunnels sharingServer List.mem_cons_self, hwithout] at hwith
    cases hwith

/-! ### A file that cannot be written -/

/-- The turn of an item. -/
def turn (i : Item) (o : Outcome) : Turn := ⟨i, o, true⟩

/-- A restart is requested. -/
def restarting : Answer := ⟨1, true, fun _ _ => none⟩

/-- A tunnel is started. -/
def startedOne : List Happening := [.sync [turn gostItem (launching true)] ⟨0, true, fun _ _ => none⟩]

/-- The file of a Hawal tunnel can be written or not. -/
def hawalTurn (written : Bool) : Turn := turn hawalItem { launching true with written := written }

/-- A Backhaul tunnel. -/
def backhaulTurn : Turn := turn ⟨str "tun_00000003", 0, .backhaul (some (str "[server]"))⟩ (launching true)

end Hawal.Agent.Blocking
