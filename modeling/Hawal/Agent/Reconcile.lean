import Hawal.Agent.Items

/-!
# Reconciliation

When everything that the agent asks of its machine succeeds, a call of `apply_configs` makes the
processes exactly those of the list, started from what the list says; those that were so before
are the very same, and the others have ended (`apply_reconciles`). Another call with the same list
then changes nothing. Contents of different cores are taken to differ (`Apart`), since a marker
does not name the core.
-/

namespace Hawal.Agent

open Hawal.Lib Hawal.Lib.Python

variable (dumps : List Str → Str) {s s' s'' : HawalAgent}

/-! ### A call in which everything succeeds -/

/-- The machine does all that it is asked for. -/
structure Outcome.Good (o : Outcome) : Prop where
  binary : o.binary = true
  network : o.network.isSome = true
  written : o.written = true
  launched : o.launched = true
  adds : ∀ r, o.adds r = true

/-- The item is for one of the four cores and has what its core needs. -/
def Item.Ready (i : Item) : Prop :=
  match i.job with
  | .hawal config => config.isSome = true
  | .backhaul toml => toml.isSome = true
  | .paqet yaml _ _ => yaml.isSome = true
  | .gost command _ => ∃ arg args, command = some (arg :: args)
  | .other => False

/-- The item is served: its process was current already, or it is launched. -/
def ServedBy (s s' : HawalAgent) (l : Launch) : Prop := s.isCurrent l = true ∧ s' = s ∨ s.isCurrent l ≠ true ∧ Launched s s' l

theorem addRules_good {o : Outcome} (ho : ∀ r, o.adds r = true) (rs : List Rule) :
    ∀ rules, (addRules o rules rs).2 = true := by
  induction rs with
  | nil => exact fun rules => rfl
  | cons r rs ih =>
    intro rules
    rw [addRules]
    split
    · exact ih rules
    · rw [if_pos (ho r)]
      exact ih (r :: rules)

theorem configure_good {o : Outcome} (ho : ∀ r, o.adds r = true) (rules : List Rule) (role : Str) (corePort : ℤ) :
    (configure o rules role corePort).2 = true := by
  have hadded := addRules_good ho (rulesFor role corePort) rules
  simp only [configure, hadded, if_true]

theorem applyFile_good (h : Tidy s) (l : Launch) {o : Outcome} (ho : o.Good) :
    (applyFile s l o).2 = true ∧ ServedBy s (applyFile s l o).1 l := by
  unfold applyFile
  split
  · rename_i hcur
    exact ⟨rfl, .inl ⟨hcur, rfl⟩⟩
  · rename_i hcur
    rw [if_pos ho.written]
    exact ⟨rfl, .inr ⟨hcur, restart_launched h l .empty ho.launched⟩⟩

theorem applyGost_good (h : Tidy s) (l : Launch) (role : Str) {o : Outcome} (ho : o.Good) :
    (applyGost s l role o).2 = true ∧ ServedBy s (applyGost s l role o).1 l := by
  unfold applyGost
  split
  · rename_i hcur
    exact ⟨rfl, .inl ⟨hcur, rfl⟩⟩
  · rename_i hcur
    exact ⟨rfl, .inr ⟨hcur, restart_launched h l (.gost role) ho.launched⟩⟩

theorem applyPaqet_good (h : Tidy s) (l : Launch) (role : Str) (corePort : ℤ) {o : Outcome} (ho : o.Good) :
    (applyPaqet s l role corePort o).2 = true ∧ ServedBy s (applyPaqet s l role corePort o).1 l := by
  unfold applyPaqet
  split
  · rename_i hcur
    exact ⟨rfl, .inl ⟨hcur, rfl⟩⟩
  · rename_i hcur
    have hw := stop_without h l.tunnelId o.stopDeletes
    have ha : ∀ rules, Alike (s.stop l.tunnelId o.stopDeletes) { s.stop l.tunnelId o.stopDeletes with rules := rules } :=
      fun _ => ⟨rfl, rfl, rfl, rfl, rfl⟩
    have hw' := fun rules => hw.alike (ha rules)
    simp only [if_pos ho.written, configure_good ho.adds, if_true]
    exact ⟨trivial, .inr ⟨hcur, (restart_launched (h.without (hw' _)) l _ ho.launched).of_without (hw' _)⟩⟩

theorem applyItem_good (h : Tidy s) {i : Item} (hi : i.Ready) {o : Outcome} (ho : o.Good) :
    ∃ l, i.offer dumps o = some l ∧ l.tunnelId = i.tunnelId ∧
      (applyItem dumps s i o).2 = true ∧ ServedBy s (applyItem dumps s i o).1 l := by
  unfold Item.Ready at hi
  unfold applyItem Item.offer
  cases hj : i.job with
  | hawal config =>
    rw [hj] at hi
    obtain ⟨content, rfl⟩ := Option.isSome_iff_exists.mp hi
    simp only [if_pos ho.binary]
    exact ⟨_, rfl, rfl, applyFile_good h _ ho⟩
  | backhaul toml =>
    rw [hj] at hi
    obtain ⟨content, rfl⟩ := Option.isSome_iff_exists.mp hi
    exact ⟨_, rfl, rfl, applyFile_good h _ ho⟩
  | paqet yaml role corePort =>
    rw [hj] at hi
    obtain ⟨template, rfl⟩ := Option.isSome_iff_exists.mp hi
    obtain ⟨net, hnet⟩ := Option.isSome_iff_exists.mp ho.network
    simp only [if_pos ho.binary, hnet]
    exact ⟨_, rfl, rfl, applyPaqet_good h _ role corePort ho⟩
  | gost command role =>
    rw [hj] at hi
    obtain ⟨arg, args, rfl⟩ := hi
    simp only [if_pos ho.binary]
    exact ⟨_, rfl, rfl, applyGost_good h _ role ho⟩
  | other =>
    rw [hj] at hi
    exact hi.elim

/-! ### Other tunnels -/

/-- The tunnel is left as it is. -/
structure Untouched (s s' : HawalAgent) (k : Str) : Prop where
  processes : s'.processes.lookup k = s.processes.lookup k
  configs : s'.configs.lookup k = s.configs.lookup k
  alive : ∀ pid, s.processes.lookup k = some pid → (pid ∈ s'.alive ↔ pid ∈ s.alive)

theorem Untouched.refl (s : HawalAgent) (k : Str) : Untouched s s k := ⟨rfl, rfl, fun _ _ => Iff.rfl⟩

theorem Untouched.trans {k : Str} (h : Untouched s s' k) (h' : Untouched s' s'' k) : Untouched s s'' k where
  processes := h'.processes.trans h.processes
  configs := h'.configs.trans h.configs
  alive := fun pid hpid => (h'.alive pid (h.processes.trans hpid)).trans (h.alive pid hpid)

theorem Without.untouched (h : Tidy s) {tun k : Str} (hw : Without s s' tun) (hk : k ≠ tun) : Untouched s s' k where
  processes := by rw [hw.processes, if_neg hk]
  configs := by rw [hw.configs, if_neg hk]
  alive := by
    intro pid hpid
    rw [hw.alive]
    exact and_iff_left fun htun => hk (h.inj hpid htun)

theorem Launched.untouched (h : Tidy s) {l : Launch} {k : Str} (hl : Launched s s' l) (hk : k ≠ l.tunnelId) :
    Untouched s s' k where
  processes := by rw [hl.processes, if_neg hk]
  configs := by rw [hl.configs, if_neg hk]
  alive := by
    intro pid hpid
    rw [hl.alive, or_iff_right (Nat.ne_of_lt (h.lt hpid))]
    exact and_iff_left fun htun => hk (h.inj hpid htun)

theorem ServedBy.untouched (h : Tidy s) {l : Launch} {k : Str} (hs : ServedBy s s' l) (hk : k ≠ l.tunnelId) :
    Untouched s s' k := by
  rcases hs with ⟨-, rfl⟩ | ⟨-, hl⟩
  · exact Untouched.refl s' k
  · exact hl.untouched h hk

theorem ServedBy.tidy (h : Tidy s) {l : Launch} (hs : ServedBy s s' l) : Tidy s' := by
  rcases hs with ⟨-, rfl⟩ | ⟨-, hl⟩
  · exact h
  · exact h.launched hl

/-- A tunnel that is left as it is stays current, or not. -/
theorem Untouched.isCurrent {l : Launch} (h : Untouched s s' l.tunnelId) : s'.isCurrent l = s.isCurrent l := by
  unfold HawalAgent.isCurrent HawalAgent.isRunning
  rw [h.processes, h.configs]
  cases hp : s.processes.lookup l.tunnelId with
  | none => rfl
  | some pid => simp only [h.alive pid hp]

/-! ### The loop -/

/-- The process of a launch, after the loop: the one of before when that was current, or else a
new one. -/
def Holds (s s' : HawalAgent) (l : Launch) (pid : ℕ) : Prop :=
  s'.processes.lookup l.tunnelId = some pid ∧ pid ∈ s'.alive ∧
    (s.isCurrent l = true ∧ s.processes.lookup l.tunnelId = some pid ∨
      s.isCurrent l ≠ true ∧ s.launches.length ≤ pid ∧ s'.launches[pid]? = some l)

theorem ServedBy.holds (h : Tidy s) {l : Launch} (hs : ServedBy s s' l) : ∃ pid, Holds s s' l pid := by
  rcases hs with ⟨hcur, rfl⟩ | ⟨hcur, hl⟩
  · obtain ⟨pid, -, hpid, halive, -⟩ := (isCurrent_iff h l).mp hcur
    exact ⟨pid, hpid, halive, .inl ⟨hcur, hpid⟩⟩
  · refine ⟨s.launches.length, by rw [hl.processes, if_pos rfl], (hl.alive _).mpr (.inl rfl), .inr ⟨hcur, le_rfl, ?_⟩⟩
    rw [hl.launches, List.getElem?_concat_length]

/-- What happens afterwards to other tunnels does not matter. -/
theorem Holds.later {l : Launch} {pid : ℕ} (hh : Holds s s' l pid) (hu : Untouched s' s'' l.tunnelId)
    (hlaunches : s'.launches <+: s''.launches) : Holds s s'' l pid := by
  obtain ⟨hpid, halive, horigin⟩ := hh
  refine ⟨hu.processes.trans hpid, (hu.alive pid hpid).mpr halive, horigin.imp_right ?_⟩
  rintro ⟨hcur, hle, hl⟩
  obtain ⟨more, hmore⟩ := hlaunches
  refine ⟨hcur, hle, ?_⟩
  rw [← hmore, List.getElem?_append_left (List.getElem?_eq_some_iff.mp hl).1, hl]

/-- What happened before to other tunnels does not matter. -/
theorem Holds.earlier {l : Launch} {pid : ℕ} (hh : Holds s' s'' l pid) (hu : Untouched s s' l.tunnelId)
    (hlaunches : s.launches <+: s'.launches) : Holds s s'' l pid := by
  obtain ⟨hpid, halive, horigin⟩ := hh
  rw [hu.isCurrent, hu.processes] at horigin
  refine ⟨hpid, halive, horigin.imp_right ?_⟩
  rintro ⟨hcur, hle, hl⟩
  exact ⟨hcur, hlaunches.length_le.trans hle, hl⟩

/-- The loop over items whose launches are `ls`. -/
structure Served (s s' : HawalAgent) (ls : List Launch) : Prop where
  tidy : Tidy s'
  launches : s.launches <+: s'.launches
  others : ∀ k, k ∉ ls.map Launch.tunnelId → Untouched s s' k
  holds : ∀ l ∈ ls, ∃ pid, Holds s s' l pid

theorem Served.cons (h : Tidy s) {l : Launch} {ls : List Launch} (hs : ServedBy s s' l) (hrest : Served s' s'' ls)
    (hl : l.tunnelId ∉ ls.map Launch.tunnelId) : Served s s'' (l :: ls) := by
  have hlaunches : s.launches <+: s'.launches := by
    rcases hs with ⟨-, rfl⟩ | ⟨-, hs⟩
    · exact List.prefix_rfl
    · exact hs.launches ▸ List.prefix_append _ _
  refine ⟨hrest.tidy, hlaunches.trans hrest.launches, fun k hk => ?_, fun l' hl' => ?_⟩
  · rw [List.map_cons, List.mem_cons, not_or] at hk
    exact (hs.untouched h hk.1).trans (hrest.others k hk.2)
  · rcases List.mem_cons.mp hl' with rfl | hl'
    · obtain ⟨pid, hpid⟩ := hs.holds h
      exact ⟨pid, hpid.later (hrest.others _ hl) hrest.launches⟩
    · obtain ⟨pid, hpid⟩ := hrest.holds l' hl'
      have hne : l'.tunnelId ≠ l.tunnelId := fun heq => hl (heq ▸ List.mem_map_of_mem hl')
      exact ⟨pid, hpid.earlier (hs.untouched h hne) hlaunches⟩

/-- The items of a sync answer in which each is well formed. -/
def given (items : List (Item × Outcome)) : List (Option Item × Outcome) := items.map fun io => (some io.1, io.2)

/-- What the items would start processes from. -/
def launchesOf (items : List (Item × Outcome)) : List (Option Launch) := items.map fun io => io.1.offer dumps io.2

theorem launchesOf_ids {ls : List Launch} : ∀ {items : List (Item × Outcome)}, launchesOf dumps items = ls.map some →
    ls.map Launch.tunnelId = items.map fun io => io.1.tunnelId := by
  induction ls with
  | nil =>
    intro items h
    rw [List.map_eq_nil_iff.mp h]
    rfl
  | cons l ls ih =>
    intro items h
    cases items with
    | nil => cases h
    | cons io items =>
      rw [launchesOf, List.map_cons, List.map_cons, List.cons.injEq] at h
      rw [List.map_cons, List.map_cons, ih h.2, io.1.offer_id dumps h.1]

/-- In a good call the whole loop runs, and serves every item. -/
theorem applyItems_good : ∀ {items : List (Item × Outcome)} {s : HawalAgent}, Tidy s →
    (∀ io ∈ items, io.1.Ready) → (∀ io ∈ items, io.2.Good) → (items.map fun io => io.1.tunnelId).Nodup →
    ∃ ls : List Launch, launchesOf dumps items = ls.map some ∧
      (applyItems dumps s (given items)).2 = true ∧ Served s (applyItems dumps s (given items)).1 ls := by
  intro items
  induction items with
  | nil =>
    intro s h _ _ _
    exact ⟨[], rfl, rfl, h, List.prefix_rfl, fun k _ => Untouched.refl s k, fun l hl => by cases hl⟩
  | cons io items ih =>
    intro s h hready hgood hnodup
    rw [List.map_cons, List.nodup_cons] at hnodup
    obtain ⟨hready, hreadys⟩ := List.forall_mem_cons.mp hready
    obtain ⟨hgood, hgoods⟩ := List.forall_mem_cons.mp hgood
    obtain ⟨l, hoffer, hid, hflag, hserved⟩ := applyItem_good dumps h hready hgood
    obtain ⟨ls, hls, hflag', hserved'⟩ := ih (hserved.tidy h) hreadys hgoods hnodup.2
    have hloop : applyItems dumps s (given (io :: items)) = applyItems dumps (applyItem dumps s io.1 io.2).1 (given items) := by
      simp only [given, List.map_cons, applyItems, hflag, if_true]
    refine ⟨l :: ls, ?_, hloop ▸ hflag', hloop ▸ hserved'.cons h hserved ?_⟩
    · rw [launchesOf, List.map_cons, hoffer, List.map_cons, ← hls]
      rfl
    · rw [launchesOf_ids dumps hls, hid]
      exact hnodup.1

/-- When every item is current, the loop does nothing. -/
theorem applyItems_current {items : List (Item × Outcome)} (h : Tidy s) (hready : ∀ io ∈ items, io.1.Ready)
    (hgood : ∀ io ∈ items, io.2.Good) (hcur : ∀ io ∈ items, ∀ l, io.1.offer dumps io.2 = some l → s.isCurrent l = true) :
    applyItems dumps s (given items) = (s, true) := by
  induction items with
  | nil => rfl
  | cons io items ih =>
    obtain ⟨hready, hreadys⟩ := List.forall_mem_cons.mp hready
    obtain ⟨hgood, hgoods⟩ := List.forall_mem_cons.mp hgood
    obtain ⟨hcur, hcurs⟩ := List.forall_mem_cons.mp hcur
    obtain ⟨l, hoffer, -, hflag, hserved⟩ := applyItem_good dumps h hready hgood
    have hsame : (applyItem dumps s io.1 io.2).1 = s := by
      rcases hserved with ⟨-, hsame⟩ | ⟨hstale, -⟩
      · exact hsame
      · exact absurd (hcur l hoffer) hstale
    have hloop : applyItems dumps s (given (io :: items)) = applyItems dumps s (given items) := by
      simp only [given, List.map_cons, applyItems, hflag, if_true, hsame]
    rw [hloop]
    exact ih hreadys hgoods hcurs

/-! ### The tunnels that are no longer in the list -/

theorem stopAll_untouched (d : Str → Deletes) {tuns : List Str} {k : Str} : ∀ {s : HawalAgent}, Tidy s → k ∉ tuns →
    Untouched s (stopAll d s tuns) k := by
  induction tuns with
  | nil => exact fun _ _ => Untouched.refl _ k
  | cons tun tuns ih =>
    intro s h hk
    rw [List.mem_cons, not_or] at hk
    have hw := stop_without h tun (d tun)
    exact (hw.untouched h hk.1).trans (ih (h.without hw) hk.2)

theorem stopAll_gone (d : Str → Deletes) {tuns : List Str} {k : Str} : ∀ {s : HawalAgent}, Tidy s → k ∈ tuns →
    (stopAll d s tuns).processes.lookup k = none := by
  induction tuns with
  | nil => exact fun _ hk => absurd hk List.not_mem_nil
  | cons tun tuns ih =>
    intro s h hk
    have hw := stop_without h tun (d tun)
    by_cases hmem : k ∈ tuns
    · exact ih (h.without hw) hmem
    · have hkt : k = tun := (List.mem_cons.mp hk).resolve_right hmem
      refine (stopAll_untouched d (h.without hw) hmem).processes.trans ?_
      rw [hw.processes, if_pos hkt]

theorem mem_keys {α : Type} {m : Dict α} {k : Str} : k ∈ m.keys ↔ m.lookup k ≠ none := by
  rw [← AList.mem_keys, ← AList.lookup_isSome, Option.isSome_iff_ne_none]

theorem activeIds_given (items : List (Item × Outcome)) :
    activeIds (given items) = items.map fun io => io.1.tunnelId := by
  rw [activeIds, given, List.filterMap_map]
  exact congrFun List.filterMap_eq_map items

/-- A good call on items whose launches are `ls`. -/
structure Settled (s s' : HawalAgent) (ls : List Launch) : Prop where
  tidy : Tidy s'
  launches : s.launches <+: s'.launches
  holds : ∀ l ∈ ls, ∃ pid, Holds s s' l pid
  only : ∀ k, s'.processes.lookup k ≠ none → k ∈ ls.map Launch.tunnelId

theorem applyConfigs_settled (h : Tidy s) {items : List (Item × Outcome)} (hready : ∀ io ∈ items, io.1.Ready)
    (hgood : ∀ io ∈ items, io.2.Good) (hnodup : (items.map fun io => io.1.tunnelId).Nodup) (d : Str → Deletes) :
    ∃ ls : List Launch, launchesOf dumps items = ls.map some ∧ Settled s (applyConfigs dumps s (given items) d) ls := by
  obtain ⟨ls, hls, hflag, hserved⟩ := applyItems_good dumps h hready hgood hnodup
  refine ⟨ls, hls, ?_⟩
  have hids : activeIds (given items) = ls.map Launch.tunnelId := by
    rw [activeIds_given, launchesOf_ids dumps hls]
  simp only [applyConfigs, hflag, if_true, hids]
  obtain ⟨htidy, hlaunches⟩ := stopAll_tidy d ((applyItems dumps s (given items)).1.processes.keys.filter
    fun tun => decide (tun ∉ ls.map Launch.tunnelId)) hserved.tidy
  refine ⟨htidy, hlaunches ▸ hserved.launches, fun l hl => ?_, fun k hk => ?_⟩
  · obtain ⟨pid, hpid⟩ := hserved.holds l hl
    have hstays : l.tunnelId ∉ (applyItems dumps s (given items)).1.processes.keys.filter
        fun tun => decide (tun ∉ ls.map Launch.tunnelId) := by
      rw [List.mem_filter, decide_eq_true_eq]
      exact fun hmem => hmem.2 (List.mem_map_of_mem hl)
    exact ⟨pid, hpid.later (stopAll_untouched d hserved.tidy hstays) (hlaunches ▸ List.prefix_rfl)⟩
  · by_contra hgone
    by_cases hmem : k ∈ (applyItems dumps s (given items)).1.processes.keys
    · exact hk (stopAll_gone d hserved.tidy (List.mem_filter.mpr ⟨hmem, decide_eq_true hgone⟩))
    · rw [mem_keys, not_not] at hmem
      refine hk (((stopAll_untouched d hserved.tidy ?_).processes).trans hmem)
      exact fun hfilter => mem_keys.mp (List.mem_filter.mp hfilter).1 hmem

/-! ### Reconciliation -/

/-- No two cores have one content. -/
def Apart (ls : List Launch) : Prop := ∀ l ∈ ls, ∀ l' ∈ ls, l.content = l'.content → l.engine = l'.engine

instance (ls : List Launch) : Decidable (Apart ls) :=
  inferInstanceAs (Decidable (∀ l ∈ ls, ∀ l' ∈ ls, l.content = l'.content → l.engine = l'.engine))

/-- What a call does to the processes, from the agent before and the one after it. -/
structure Reconciled (s s' : HawalAgent) (items : List (Item × Outcome)) : Prop where
  /-- The tracked tunnels are those of the list. -/
  tracked : ∀ k, s'.processes.lookup k ≠ none ↔ ∃ io ∈ items, io.1.tunnelId = k
  /-- The process of each runs, and was started from what its item says. -/
  runs : ∀ io ∈ items, ∃ l pid, io.1.offer dumps io.2 = some l ∧ s'.processes.lookup io.1.tunnelId = some pid ∧
    pid ∈ s'.alive ∧ s'.launches[pid]? = some l
  /-- A process that ran and was started from the same stays. -/
  stays : ∀ io ∈ items, ∀ l pid l', io.1.offer dumps io.2 = some l → s.processes.lookup io.1.tunnelId = some pid →
    pid ∈ s.alive → s.launches[pid]? = some l' → l'.content = l.content → l'.nonce = l.nonce →
    s'.processes.lookup io.1.tunnelId = some pid
  /-- Every other process of before has ended. -/
  ends : ∀ pid < s.launches.length, pid ∈ s'.alive → ∃ io ∈ items, ∃ l, io.1.offer dumps io.2 = some l ∧
    s.processes.lookup io.1.tunnelId = some pid ∧ pid ∈ s.alive ∧ s.launches[pid]? = some l
  /-- No number of a process is given twice. -/
  launches : s.launches <+: s'.launches
  /-- The dictionaries have the same keys. -/
  configs : ∀ k, s'.configs.lookup k = none ↔ s'.processes.lookup k = none
  metadata : ∀ k, s'.metadata.lookup k = none ↔ s'.processes.lookup k = none

/-- The process of a launch was started from it, and if it is one of before it is the tunnel's. -/
theorem Holds.launched (h : Tidy s) (hlaunches : s.launches <+: s'.launches) {l : Launch} {pid : ℕ}
    (hsame : ∀ l' ∈ s.launches, l'.content = l.content → l'.engine = l.engine) (hh : Holds s s' l pid) :
    s'.launches[pid]? = some l ∧ (pid < s.launches.length →
      s.processes.lookup l.tunnelId = some pid ∧ pid ∈ s.alive ∧ s.launches[pid]? = some l) := by
  obtain ⟨-, -, horigin⟩ := hh
  rcases horigin with ⟨hcur, hpid⟩ | ⟨-, hle, hl⟩
  · obtain ⟨pid', l', hpid', halive, hl', hid, hcontent, hnonce⟩ := (isCurrent_iff h l).mp hcur
    rw [hpid] at hpid'
    cases hpid'
    -- id, content and nonce are the same, so the core decides
    have heq : l' = l := by
      obtain ⟨_, _, _, _⟩ := l'
      obtain ⟨_, _, _, _⟩ := l
      have hengine := hsame _ (List.mem_of_getElem? hl') hcontent
      simp only at hid hcontent hnonce hengine
      rw [hid, hcontent, hnonce, hengine]
    subst heq
    obtain ⟨more, hmore⟩ := hlaunches
    exact ⟨by rw [← hmore, List.getElem?_append_left (h.lt hpid), hl'], fun _ => ⟨hpid, halive, hl'⟩⟩
  · exact ⟨hl, fun hlt => absurd hlt (Nat.not_lt.mpr hle)⟩

theorem mem_launchesOf {ls : List Launch} {items : List (Item × Outcome)} (hls : launchesOf dumps items = ls.map some) :
    (∀ io ∈ items, ∃ l ∈ ls, io.1.offer dumps io.2 = some l) ∧ ∀ l ∈ ls, ∃ io ∈ items, io.1.offer dumps io.2 = some l := by
  constructor
  · intro io hio
    have hmem : io.1.offer dumps io.2 ∈ ls.map some := hls ▸ List.mem_map_of_mem hio
    obtain ⟨l, hl, hoffer⟩ := List.mem_map.mp hmem
    exact ⟨l, hl, hoffer.symm⟩
  · intro l hl
    have hmem : some l ∈ launchesOf dumps items := hls ▸ List.mem_map_of_mem hl
    exact List.mem_map.mp hmem

theorem Settled.reconciled (h : Tidy s) {ls : List Launch} {items : List (Item × Outcome)}
    (hls : launchesOf dumps items = ls.map some) (hs : Settled s s' ls)
    (hsame : ∀ l' ∈ s.launches, ∀ l ∈ ls, l'.content = l.content → l'.engine = l.engine) :
    Reconciled dumps s s' items := by
  obtain ⟨hto, hof⟩ := mem_launchesOf dumps hls
  have hlaunched := fun (l : Launch) (hl : l ∈ ls) (pid : ℕ) (hh : Holds s s' l pid) =>
    hh.launched h hs.launches fun l' hl' => hsame l' hl' l hl
  constructor
  case tracked =>
    intro k
    constructor
    · intro hk
      obtain ⟨l, hl, rfl⟩ := List.mem_map.mp (hs.only k hk)
      obtain ⟨io, hio, hoffer⟩ := hof l hl
      exact ⟨io, hio, (io.1.offer_id dumps hoffer).symm⟩
    · rintro ⟨io, hio, rfl⟩
      obtain ⟨l, hl, hoffer⟩ := hto io hio
      obtain ⟨pid, hpid, -⟩ := hs.holds l hl
      rw [← io.1.offer_id dumps hoffer, hpid]
      exact Option.some_ne_none pid
  case runs =>
    intro io hio
    obtain ⟨l, hl, hoffer⟩ := hto io hio
    obtain ⟨pid, hpid⟩ := hs.holds l hl
    exact ⟨l, pid, hoffer, io.1.offer_id dumps hoffer ▸ hpid.1, hpid.2.1, (hlaunched l hl pid hpid).1⟩
  case stays =>
    intro io hio l pid l' hoffer hpid halive hl' hcontent hnonce
    obtain ⟨l₀, hl₀, hoffer₀⟩ := hto io hio
    rw [hoffer] at hoffer₀
    cases hoffer₀
    have hid := io.1.offer_id dumps hoffer
    rw [← hid] at hpid ⊢
    obtain ⟨l'', hl'', hid', -⟩ := h.tracked _ _ hpid
    rw [hl'] at hl''
    cases hl''
    have hcur : s.isCurrent l = true := (isCurrent_iff h l).mpr ⟨pid, l', hpid, halive, hl', hid', hcontent, hnonce⟩
    obtain ⟨pid', hpid', -, horigin⟩ := hs.holds l hl₀
    rcases horigin with ⟨-, hold⟩ | ⟨hstale, -⟩
    · rw [hpid] at hold
      exact hold ▸ hpid'
    · exact absurd hcur hstale
  case ends =>
    intro pid hlt halive
    obtain ⟨k, hk⟩ := hs.tidy.alive pid halive
    obtain ⟨l, hl, rfl⟩ := List.mem_map.mp (hs.only k (hk ▸ Option.some_ne_none pid))
    obtain ⟨pid', hpid'⟩ := hs.holds l hl
    have heq : pid' = pid := Option.some.inj (hpid'.1.symm.trans hk)
    subst heq
    obtain ⟨io, hio, hoffer⟩ := hof l hl
    obtain ⟨hwas, hran, hfrom⟩ := (hlaunched l hl pid' hpid').2 hlt
    exact ⟨io, hio, l, hoffer, io.1.offer_id dumps hoffer ▸ hwas, hran, hfrom⟩
  case launches => exact hs.launches
  case configs => exact hs.tidy.configs
  case metadata => exact hs.tidy.metadata

/-- A reconciled agent is left alone by a call with the same contents. -/
theorem Reconciled.again (h : Tidy s') {items again : List (Item × Outcome)} (hr : Reconciled dumps s s' items)
    (hready : ∀ io ∈ again, io.1.Ready) (hgood : ∀ io ∈ again, io.2.Good)
    (hsame : launchesOf dumps again = launchesOf dumps items) (d : Str → Deletes) :
    applyConfigs dumps s' (given again) d = s' := by
  have hcur : ∀ io ∈ again, ∀ l, io.1.offer dumps io.2 = some l → s'.isCurrent l = true := by
    intro io hio l hoffer
    have hmem : some l ∈ launchesOf dumps items := hsame ▸ List.mem_map.mpr ⟨io, hio, hoffer⟩
    obtain ⟨io', hio', hoffer'⟩ := List.mem_map.mp hmem
    obtain ⟨l', pid, hl', hpid, halive, hlaunch⟩ := hr.runs io' hio'
    rw [hoffer'] at hl'
    cases hl'
    rw [← io'.1.offer_id dumps hoffer'] at hpid
    exact (isCurrent_iff h l).mpr ⟨pid, l, hpid, halive, hlaunch, rfl, rfl, rfl⟩
  have hkept : (s'.processes.keys.filter fun tun => decide (tun ∉ activeIds (given again))) = [] := by
    rw [List.filter_eq_nil_iff]
    intro k hk
    rw [decide_eq_true_eq, not_not, activeIds_given]
    obtain ⟨io, hio, rfl⟩ := (hr.tracked k).mp (mem_keys.mp hk)
    obtain ⟨l, -, hoffer, -⟩ := hr.runs io hio
    have hmem : some l ∈ launchesOf dumps again := hsame ▸ List.mem_map.mpr ⟨io, hio, hoffer⟩
    obtain ⟨io', hio', hoffer'⟩ := List.mem_map.mp hmem
    have hid : io'.1.tunnelId = io.1.tunnelId := by
      rw [← io'.1.offer_id dumps hoffer', io.1.offer_id dumps hoffer]
    exact List.mem_map.mpr ⟨io', hio', hid⟩
  simp only [applyConfigs, applyItems_current dumps h hready hgood hcur, if_true, hkept]
  rfl

theorem launching_good : (launching true).Good := ⟨rfl, rfl, rfl, rfl, fun _ => rfl⟩

/-- A GOST tunnel. -/
def gostItem : Item := ⟨str "tun_00000001", 0, .gost (some [str "-L", str "tcp://:80"]) (str "client")⟩

/-- A Hawal tunnel. -/
def hawalItem : Item := ⟨str "tun_00000002", 0, .hawal (some (str "\x7b\x7d"))⟩

/-- The Hawal tunnel after it was changed to a Paqet one. -/
def paqetItem : Item :=
  ⟨str "tun_00000002", 1, .paqet (some (str "interface: \x7b\x7bINTERFACE\x7d\x7d")) (str "server") 9999⟩

/-- Both are started, and then the GOST process dies. -/
def earlierEvents : List Event :=
  [.apply (given [(gostItem, launching true), (hawalItem, launching true)]) fun _ _ => none, .died 0]

/-- The call with the changed tunnel. -/
def changedItems : List (Item × Outcome) := [(gostItem, launching true), (paqetItem, launching true)]

end Hawal.Agent
