import Hawal.Agent.Reconcile

/-!
# What a call starts, and what remains

A call of `apply_configs` in which everything succeeds starts a process for each item whose process is not
current, and for no other (`launches_applyConfigs`); a process that is current stays. So each tunnel of the list
is started once or not at all (`started_applyConfigs`). Whatever fails on the way, each live process of the agent is
the one of its tunnel, and none outlives the agent (`no_strays`).
-/

namespace Hawal.Agent

open Hawal.Lib Hawal.Lib.Python

variable (dumps : List Str → Str) {s s' : HawalAgent}

/-- How often the agent has started a process for the tunnel. -/
def HawalAgent.started (s : HawalAgent) (tun : Str) : ℕ := s.launches.countP fun l => decide (l.tunnelId = tun)

theorem launches_of_servedBy {l : Launch} (h : ServedBy s s' l) :
    s'.launches = s.launches ++ [l].filter fun l => !s.isCurrent l := by
  rcases h with ⟨hcur, rfl⟩ | ⟨hcur, hl⟩
  · simp [hcur]
  · simp [hcur, hl.launches]

theorem launches_applyItems {items : List (Item × Outcome)} : ∀ {s : HawalAgent}, Tidy s →
    (∀ io ∈ items, io.1.Ready) → (∀ io ∈ items, io.2.Good) → (items.map fun io => io.1.tunnelId).Nodup →
    ∃ ls : List Launch, launchesOf dumps items = ls.map some ∧
      (applyItems dumps s (given items)).1.launches = s.launches ++ ls.filter fun l => !s.isCurrent l := by
  induction items with
  | nil =>
    intro s _ _ _ _
    exact ⟨[], rfl, (List.append_nil _).symm⟩
  | cons io items ih =>
    intro s h hready hgood hnodup
    rw [List.map_cons, List.nodup_cons] at hnodup
    rw [List.forall_mem_cons] at hready hgood
    obtain ⟨l, hoffer, hid, hflag, hserved⟩ := applyItem_good dumps h hready.1 hgood.1
    obtain ⟨ls, hls, hlaunches⟩ := ih (hserved.tidy h) hready.2 hgood.2 hnodup.2
    have hloop : applyItems dumps s (given (io :: items)) =
        applyItems dumps (applyItem dumps s io.1 io.2).1 (given items) := by
      simp only [given, List.map_cons, applyItems, hflag, if_true]
    -- the other items are about other tunnels, which the first has left alone
    have hothers : ∀ l' ∈ ls, (!(applyItem dumps s io.1 io.2).1.isCurrent l') = !s.isCurrent l' := by
      intro l' hl'
      have hmem : l'.tunnelId ∈ items.map fun io => io.1.tunnelId :=
        launchesOf_ids dumps hls ▸ List.mem_map_of_mem hl'
      have hne : l'.tunnelId ≠ l.tunnelId := by
        rintro heq
        rw [heq, hid] at hmem
        exact hnodup.1 hmem
      rw [(hserved.untouched h hne).isCurrent]
    refine ⟨l :: ls, by simp [launchesOf, hoffer, ← hls], ?_⟩
    rw [hloop, hlaunches, launches_of_servedBy hserved, List.append_assoc, List.filter_congr hothers,
      ← List.filter_append, List.singleton_append]

/-- A call starts what is not current, and leaves what is. -/
theorem launches_applyConfigs (h : Tidy s) {items : List (Item × Outcome)} (hready : ∀ io ∈ items, io.1.Ready)
    (hgood : ∀ io ∈ items, io.2.Good) (hnodup : (items.map fun io => io.1.tunnelId).Nodup) (d : Str → Deletes) :
    ∃ ls : List Launch, launchesOf dumps items = ls.map some ∧
      (applyConfigs dumps s (given items) d).launches = s.launches ++ ls.filter (fun l => !s.isCurrent l) ∧
      ∀ l ∈ ls, s.isCurrent l = true →
        (applyConfigs dumps s (given items) d).processes.lookup l.tunnelId = s.processes.lookup l.tunnelId := by
  obtain ⟨ls, hls, hlaunches⟩ := launches_applyItems dumps h hready hgood hnodup
  obtain ⟨ls', hls', hsettled⟩ := applyConfigs_settled dumps h hready hgood hnodup d
  have hsame : ls' = ls := List.map_injective_iff.mpr (fun _ _ => Option.some.inj) (hls'.symm.trans hls)
  subst hsame
  obtain ⟨ls'', -, hflag, hserved⟩ := applyItems_good dumps h hready hgood hnodup
  refine ⟨ls', hls, ?_, fun l hl hcur => ?_⟩
  · simp only [applyConfigs, hflag, if_true]
    rw [(stopAll_tidy d _ hserved.tidy).2, hlaunches]
  · obtain ⟨pid, hpid, -, horigin⟩ := hsettled.holds l hl
    rcases horigin with ⟨-, hold⟩ | ⟨hstale, -⟩
    · rw [hpid, hold]
    · exact absurd hcur hstale

/-- Of items about different tunnels one at most is about this one. -/
theorem countP_filter_of_mem {q : Launch → Bool} {ls : List Launch} (hnodup : (ls.map Launch.tunnelId).Nodup)
    {l : Launch} (hl : l ∈ ls) :
    (ls.filter q).countP (fun l' => decide (l'.tunnelId = l.tunnelId)) = if q l then 1 else 0 := by
  induction ls with
  | nil => cases hl
  | cons l₀ ls ih =>
    rw [List.map_cons, List.nodup_cons] at hnodup
    rcases List.mem_cons.mp hl with rfl | hl
    · have hrest : (ls.filter q).countP (fun l' => decide (l'.tunnelId = l.tunnelId)) = 0 := by
        rw [List.countP_eq_zero]
        intro l' hl' hid
        exact hnodup.1 (of_decide_eq_true hid ▸ List.mem_map_of_mem (List.mem_of_mem_filter hl'))
      rw [List.filter_cons]
      split
      · rw [List.countP_cons_of_pos (by simp), hrest]
      · exact hrest
    · have hne : l₀.tunnelId ≠ l.tunnelId := fun hid => hnodup.1 (hid ▸ List.mem_map_of_mem hl)
      rw [List.filter_cons]
      split
      · rw [List.countP_cons_of_neg (by simpa using hne), ih hnodup.2 hl]
      · exact ih hnodup.2 hl

/-- How often a tunnel of the list is started by a call. -/
theorem started_applyConfigs (h : Tidy s) {items : List (Item × Outcome)} (hready : ∀ io ∈ items, io.1.Ready)
    (hgood : ∀ io ∈ items, io.2.Good) (hnodup : (items.map fun io => io.1.tunnelId).Nodup) (d : Str → Deletes)
    {io : Item × Outcome} (hio : io ∈ items) {l : Launch} (hoffer : io.1.offer dumps io.2 = some l) :
    (applyConfigs dumps s (given items) d).started l.tunnelId =
        s.started l.tunnelId + (if s.isCurrent l then 0 else 1) ∧
      (s.isCurrent l = true →
        (applyConfigs dumps s (given items) d).processes.lookup l.tunnelId = s.processes.lookup l.tunnelId) := by
  obtain ⟨ls, hls, hlaunches, hstays⟩ := launches_applyConfigs dumps h hready hgood hnodup d
  obtain ⟨l', hl', hoffer'⟩ := (mem_launchesOf dumps hls).1 io hio
  rw [hoffer] at hoffer'
  cases hoffer'
  have hids : (ls.map Launch.tunnelId).Nodup := by rwa [launchesOf_ids dumps hls]
  refine ⟨?_, hstays l hl'⟩
  rw [HawalAgent.started, hlaunches, List.countP_append, countP_filter_of_mem hids hl']
  cases s.isCurrent l <;> rfl

/-! ### Whole runs -/

/-- **No strays**: in every run, whatever fails on the way, a live process is the one that the agent has for its tunnel
and was started from what an item offered for it, so that no tunnel has two; and when `run` ends, no process is left
and nothing is remembered of any tunnel. -/
theorem no_strays {es : List Event} (hrun : exec (agentStep dumps) HawalAgent.start es = some s) :
    (∀ pid ∈ s.alive, ∃ l, s.launches[pid]? = some l ∧ l ∈ es.flatMap (Event.offers dumps) ∧
      s.processes.lookup l.tunnelId = some pid ∧
      ∀ pid' ∈ s.alive, ∀ l', s.launches[pid']? = some l' → l'.tunnelId = l.tunnelId → pid' = pid) ∧
    ∀ d, agentStep dumps s (.shutdown d) = some s' →
      (∀ pid, pid ∉ s'.alive) ∧ ∀ k, s'.processes.lookup k = none ∧ s'.configs.lookup k = none ∧
        s'.metadata.lookup k = none := by
  obtain ⟨htidy, horigin⟩ := exec_tidy dumps tidy_start hrun
  have htracked : ∀ pid ∈ s.alive, ∃ l, s.launches[pid]? = some l ∧ s.processes.lookup l.tunnelId = some pid := by
    intro pid halive
    obtain ⟨k, hk⟩ := htidy.alive pid halive
    obtain ⟨l, hl, rfl, -⟩ := htidy.tracked k pid hk
    exact ⟨l, hl, hk⟩
  constructor
  · intro pid halive
    obtain ⟨l, hl, hk⟩ := htracked pid halive
    refine ⟨l, hl, (horigin l (List.mem_of_getElem? hl)).resolve_left List.not_mem_nil, hk, ?_⟩
    intro pid' halive' l' hl' hid
    obtain ⟨l'', hl'', hk'⟩ := htracked pid' halive'
    rw [hl', Option.some.injEq] at hl''
    subst hl''
    rw [hid, hk] at hk'
    exact (Option.some.inj hk').symm
  · intro d hstep
    cases hstep
    have htidy' := (stopAll_tidy d s.processes.keys htidy).1
    have hgone : ∀ k, (stopAll d s s.processes.keys).processes.lookup k = none := by
      intro k
      by_cases hk : k ∈ s.processes.keys
      · exact stopAll_gone d htidy hk
      · exact (stopAll_untouched d htidy hk).processes.trans (not_not.mp fun hne => hk (mem_keys.mpr hne))
    refine ⟨fun pid halive => ?_, fun k =>
      ⟨hgone k, (htidy'.configs k).mpr (hgone k), (htidy'.metadata k).mpr (hgone k)⟩⟩
    obtain ⟨k, hk⟩ := htidy'.alive pid halive
    rw [hgone] at hk
    cases hk

/-- Three items: the first is started, the second is not, and the third raises. -/
def failingItems : List (Option Item × Outcome) :=
  [(some ⟨str "tun_1", 0, .hawal (some [])⟩, launching true), (some ⟨str "tun_2", 0, .hawal (some [])⟩, launching false),
    (none, launching true)]

/-- A sync in which items fail, and another that moves the first tunnel; then the agent ends. -/
theorem no_strays_failing : ∃ s s', exec (agentStep plainDumps) HawalAgent.start
      [.apply failingItems fun _ _ => none,
        .apply [(some ⟨str "tun_1", 1, .hawal (some [])⟩, launching true)] fun _ _ => none] = some s ∧
    agentStep plainDumps s (.shutdown fun _ _ => none) = some s' ∧ s.launches.length = 2 ∧ s.alive ≠ [] ∧
      ∀ pid, pid ∉ s'.alive := by
  obtain ⟨s, hs, hlaunches, halive⟩ : ∃ s, exec (agentStep plainDumps) HawalAgent.start
      [.apply failingItems fun _ _ => none,
        .apply [(some ⟨str "tun_1", 1, .hawal (some [])⟩, launching true)] fun _ _ => none] = some s ∧
      s.launches.length = 2 ∧ s.alive ≠ [] := exists_of_any (by decide +kernel)
  exact ⟨s, _, hs, rfl, hlaunches, halive, ((no_strays plainDumps hs).2 _ rfl).1⟩

end Hawal.Agent
