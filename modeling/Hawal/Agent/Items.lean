import Hawal.Agent.Daemon

/-!
# Applying an item

What one item of a sync answer does to the processes of the agent. It does one of three things
to the dictionaries (`applyItem_cases`): it leaves them alone, it removes the tunnel (`Without`)
or it starts a process for the tunnel in the place of the old one (`Launched`). From this
follows what holds of every agent (`exec_tidy`): the three dictionaries have the same keys, the
marker of a tunnel is that of what its process was started from, and every process that runs is
tracked.
-/

namespace Hawal.Agent

open Hawal.Lib Hawal.Lib.Python

theorem lookup_erase_ite {α : Type} (m : Dict α) (k k' : Str) :
    (m.erase k').lookup k = if k = k' then none else m.lookup k := by
  split
  · rename_i h
    rw [h, AList.lookup_erase]
  · rename_i h
    exact AList.lookup_erase_ne h

/-- A key that is not there can be left out. -/
theorem lookup_of_none {α : Type} {m : Dict α} {k' : Str} (h : m.lookup k' = none) (k : Str) :
    m.lookup k = if k = k' then none else m.lookup k := by
  split
  · rename_i hk
    rw [hk, h]
  · rfl

theorem lookup_insert_ite {α : Type} (m : Dict α) (k k' : Str) (v : α) :
    (m.insert k' v).lookup k = if k = k' then some v else m.lookup k := by
  split
  · rename_i h
    rw [h, AList.lookup_insert]
  · rename_i h
    exact AList.lookup_insert_ne h

/-- The marker tells content and nonce: the nonce is printed without the character that starts its
part. -/
theorem marker_inj {c c' : Str} {n n' : ℤ} : marker c n = marker c' n' ↔ c = c' ∧ n = n' := by
  constructor
  · intro h
    have hlast : ∀ (c : Str) (n : ℤ), afterLast 0 (marker c n) = str "restart:" ++ decimal n := by
      intro c n
      have hsplit : marker c n = c ++ 0 :: (str "restart:" ++ decimal n) := by
        rw [marker, List.append_assoc]
        rfl
      rw [hsplit]
      refine afterLast_append_cons fun h0 => ?_
      rcases List.mem_append.mp h0 with h0 | h0
      · exact absurd h0 (by decide)
      · rcases mem_decimal h0 with h0 | h0
        · exact absurd h0 (by decide)
        · exact absurd h0.1 (by decide)
    have hnonce : n = n' := by
      have hdec := hlast c n
      rw [h, hlast c' n'] at hdec
      exact (decimal_inj.mp (List.append_cancel_left hdec)).symm
    subst hnonce
    exact ⟨List.append_cancel_right (List.append_cancel_right h), rfl⟩
  · rintro ⟨rfl, rfl⟩
    rfl

/-! ### Agents -/

/-- What holds of every agent. -/
structure Tidy (s : HawalAgent) : Prop where
  configs : ∀ k, s.configs.lookup k = none ↔ s.processes.lookup k = none
  metadata : ∀ k, s.metadata.lookup k = none ↔ s.processes.lookup k = none
  tracked : ∀ k pid, s.processes.lookup k = some pid →
    ∃ l, s.launches[pid]? = some l ∧ l.tunnelId = k ∧ s.configs.lookup k = some (marker l.content l.nonce)
  alive : ∀ pid ∈ s.alive, ∃ k, s.processes.lookup k = some pid

/-- The same but for the rules. -/
structure Alike (s s' : HawalAgent) : Prop where
  processes : s'.processes = s.processes
  configs : s'.configs = s.configs
  metadata : s'.metadata = s.metadata
  launches : s'.launches = s.launches
  alive : s'.alive = s.alive

/-- The tunnel is removed, and its process has ended. -/
structure Without (s s' : HawalAgent) (tun : Str) : Prop where
  processes : ∀ k, s'.processes.lookup k = if k = tun then none else s.processes.lookup k
  configs : ∀ k, s'.configs.lookup k = if k = tun then none else s.configs.lookup k
  metadata : ∀ k, s'.metadata.lookup k = if k = tun then none else s.metadata.lookup k
  launches : s'.launches = s.launches
  alive : ∀ pid, pid ∈ s'.alive ↔ pid ∈ s.alive ∧ s.processes.lookup tun ≠ some pid

/-- A process was launched for its tunnel, in the place of the one of before. -/
structure Launched (s s' : HawalAgent) (l : Launch) : Prop where
  processes : ∀ k, s'.processes.lookup k = if k = l.tunnelId then some s.launches.length else s.processes.lookup k
  configs : ∀ k, s'.configs.lookup k =
    if k = l.tunnelId then some (marker l.content l.nonce) else s.configs.lookup k
  metadata : ∃ m, ∀ k, s'.metadata.lookup k = if k = l.tunnelId then some m else s.metadata.lookup k
  launches : s'.launches = s.launches ++ [l]
  alive : ∀ pid, pid ∈ s'.alive ↔
    pid = s.launches.length ∨ pid ∈ s.alive ∧ s.processes.lookup l.tunnelId ≠ some pid

variable {s s' s'' : HawalAgent}

/-- A tracked process is one of those launched. -/
theorem Tidy.lt (h : Tidy s) {k : Str} {pid : ℕ} (hk : s.processes.lookup k = some pid) : pid < s.launches.length := by
  obtain ⟨l, hl, -⟩ := h.tracked k pid hk
  exact (List.getElem?_eq_some_iff.mp hl).1

/-- No two tunnels have one process. -/
theorem Tidy.inj (h : Tidy s) {k k' : Str} {pid : ℕ} (hk : s.processes.lookup k = some pid)
    (hk' : s.processes.lookup k' = some pid) : k = k' := by
  obtain ⟨l, hl, hid, -⟩ := h.tracked k pid hk
  obtain ⟨l', hl', hid', -⟩ := h.tracked k' pid hk'
  rw [hl] at hl'
  cases hl'
  rw [← hid, hid']

theorem tidy_start : Tidy HawalAgent.start where
  configs := fun _ => iff_of_true rfl rfl
  metadata := fun _ => iff_of_true rfl rfl
  tracked := fun k pid h => by cases h
  alive := fun pid h => by cases h

theorem Alike.refl (s : HawalAgent) : Alike s s := ⟨rfl, rfl, rfl, rfl, rfl⟩

theorem Tidy.alike (h : Tidy s) (ha : Alike s s') : Tidy s' where
  configs := by
    rw [ha.configs, ha.processes]
    exact h.configs
  metadata := by
    rw [ha.metadata, ha.processes]
    exact h.metadata
  tracked := by
    rw [ha.processes, ha.launches, ha.configs]
    exact h.tracked
  alive := by
    rw [ha.alive, ha.processes]
    exact h.alive

theorem Tidy.without (h : Tidy s) {tun : Str} (hw : Without s s' tun) : Tidy s' where
  configs := by
    intro k
    rw [hw.configs, hw.processes]
    split
    · exact iff_of_true rfl rfl
    · exact h.configs k
  metadata := by
    intro k
    rw [hw.metadata, hw.processes]
    split
    · exact iff_of_true rfl rfl
    · exact h.metadata k
  tracked := by
    intro k pid hk
    rw [hw.processes] at hk
    rw [hw.launches, hw.configs]
    split at hk
    · cases hk
    · rename_i hne
      rw [if_neg hne]
      exact h.tracked k pid hk
  alive := by
    intro pid hpid
    obtain ⟨hpid, hne⟩ := (hw.alive pid).mp hpid
    obtain ⟨k, hk⟩ := h.alive pid hpid
    have hkt : k ≠ tun := fun hkt => hne (hkt ▸ hk)
    exact ⟨k, by rw [hw.processes, if_neg hkt, hk]⟩

theorem Tidy.launched (h : Tidy s) {l : Launch} (hl : Launched s s' l) : Tidy s' where
  configs := by
    intro k
    rw [hl.configs, hl.processes]
    split
    · exact iff_of_false (by simp) (by simp)
    · exact h.configs k
  metadata := by
    intro k
    obtain ⟨m, hm⟩ := hl.metadata
    rw [hm, hl.processes]
    split
    · exact iff_of_false (by simp) (by simp)
    · exact h.metadata k
  tracked := by
    intro k pid hk
    rw [hl.processes] at hk
    rw [hl.launches, hl.configs]
    split at hk
    · rename_i hkl
      cases hk
      exact ⟨l, List.getElem?_concat_length, hkl.symm, if_pos hkl⟩
    · rename_i hkl
      obtain ⟨l', hl', hid, hconf⟩ := h.tracked k pid hk
      exact ⟨l', by rw [List.getElem?_append_left (h.lt hk), hl'], hid, by rw [if_neg hkl, hconf]⟩
  alive := by
    intro pid hpid
    rcases (hl.alive pid).mp hpid with rfl | ⟨hpid, hne⟩
    · exact ⟨l.tunnelId, by rw [hl.processes, if_pos rfl]⟩
    · obtain ⟨k, hk⟩ := h.alive pid hpid
      have hkl : k ≠ l.tunnelId := fun hkl => hne (hkl ▸ hk)
      exact ⟨k, by rw [hl.processes, if_neg hkl, hk]⟩

/-! ### Stopping and starting -/

theorem mem_kill {pid p : ℕ} : p ∈ (s.kill pid).alive ↔ p ∈ s.alive ∧ p ≠ pid := by
  show p ∈ s.alive.filter _ ↔ _
  rw [List.mem_filter, decide_eq_true_eq]

theorem stop_without (h : Tidy s) (tun : Str) (d : Deletes) : Without s (s.stop tun d) tun := by
  unfold HawalAgent.stop
  cases hp : s.processes.lookup tun with
  | some pid =>
    refine ⟨fun k => lookup_erase_ite _ _ _, fun k => lookup_erase_ite _ _ _, fun k => lookup_erase_ite _ _ _, rfl,
      fun p => ?_⟩
    rw [hp]
    refine mem_kill.trans (and_congr Iff.rfl ?_)
    exact ⟨fun hne hpid => hne (Option.some.inj hpid).symm, fun hne hpid => hne (hpid ▸ rfl)⟩
  | none =>
    -- without a process the tunnel has no configuration either
    have hconf : s.configs.lookup tun = none := (h.configs tun).mpr hp
    refine ⟨lookup_of_none hp, lookup_of_none hconf, fun k => lookup_erase_ite _ _ _, rfl, fun p => ?_⟩
    rw [hp]
    exact (and_iff_left (by simp)).symm

theorem Without.alike {tun : Str} (hw : Without s s' tun) (ha : Alike s' s'') : Without s s'' tun where
  processes := by
    rw [ha.processes]
    exact hw.processes
  configs := by
    rw [ha.configs]
    exact hw.configs
  metadata := by
    rw [ha.metadata]
    exact hw.metadata
  launches := ha.launches.trans hw.launches
  alive := by
    rw [ha.alive]
    exact hw.alive

/-- Once more. -/
theorem Without.again {tun : Str} (hw : Without s s' tun) (hw' : Without s' s'' tun) : Without s s'' tun where
  processes := by
    intro k
    rw [hw'.processes, hw.processes]
    split <;> rfl
  configs := by
    intro k
    rw [hw'.configs, hw.configs]
    split <;> rfl
  metadata := by
    intro k
    rw [hw'.metadata, hw.metadata]
    split <;> rfl
  launches := hw'.launches.trans hw.launches
  alive := by
    intro pid
    rw [hw'.alive, hw.alive, hw.processes, if_pos rfl]
    exact and_iff_left (by simp)

/-- Starting a process for a tunnel that is removed. -/
theorem Launched.of_without {l : Launch} (hw : Without s s' l.tunnelId) (hl : Launched s' s'' l) :
    Launched s s'' l where
  processes := by
    intro k
    rw [hl.processes, hw.processes, hw.launches]
    split <;> rfl
  configs := by
    intro k
    rw [hl.configs, hw.configs]
    split <;> rfl
  metadata := by
    obtain ⟨m, hm⟩ := hl.metadata
    refine ⟨m, fun k => ?_⟩
    rw [hm, hw.metadata]
    split <;> rfl
  launches := by rw [hl.launches, hw.launches]
  alive := by
    intro pid
    rw [hl.alive, hw.alive, hw.launches, hw.processes, if_pos rfl]
    exact or_congr Iff.rfl (and_iff_left (by simp))

theorem restart_launched (h : Tidy s) (l : Launch) (m : Metadata) {o : Outcome} (ho : o.launched = true) :
    Launched s (s.restart l m o) l := by
  have hw := stop_without h l.tunnelId o.stopDeletes
  refine Launched.of_without hw ?_
  rw [HawalAgent.restart, if_pos ho]
  refine ⟨fun k => lookup_insert_ite _ _ _ _, fun k => lookup_insert_ite _ _ _ _,
    ⟨m, fun k => lookup_insert_ite _ _ _ _⟩, rfl, fun pid => ?_⟩
  rw [hw.processes, if_pos rfl]
  exact List.mem_cons.trans (or_congr Iff.rfl (and_iff_left (by simp)).symm)

theorem restart_without (h : Tidy s) (l : Launch) (m : Metadata) {o : Outcome} (ho : ¬ o.launched = true) :
    Without s (s.restart l m o) l.tunnelId := by
  rw [HawalAgent.restart, if_neg ho]
  exact stop_without h l.tunnelId o.stopDeletes

/-! ### Items -/

/-- The process of the tunnel is current: it runs, and it was started from the same. -/
theorem isCurrent_iff (h : Tidy s) (l : Launch) : s.isCurrent l = true ↔
    ∃ pid l', s.processes.lookup l.tunnelId = some pid ∧ pid ∈ s.alive ∧ s.launches[pid]? = some l' ∧
      l'.tunnelId = l.tunnelId ∧ l'.content = l.content ∧ l'.nonce = l.nonce := by
  unfold HawalAgent.isCurrent HawalAgent.isRunning
  cases hp : s.processes.lookup l.tunnelId with
  | none =>
    refine iff_of_false (by simp) ?_
    rintro ⟨pid, l', hpid, -⟩
    cases hpid
  | some pid =>
    obtain ⟨l', hl', hid, hconf⟩ := h.tracked _ pid hp
    rw [Bool.and_eq_true, decide_eq_true_eq, decide_eq_true_eq, hconf, Option.some.injEq, marker_inj]
    constructor
    · rintro ⟨halive, hc, hn⟩
      exact ⟨pid, l', rfl, halive, hl', hid, hc, hn⟩
    · rintro ⟨pid', l'', hpid, halive, hl'', -, hc, hn⟩
      cases hpid
      rw [hl'] at hl''
      cases hl''
      exact ⟨halive, hc, hn⟩

variable (dumps : List Str → Str)

/-- What the item would start a process from. -/
def Item.offer (i : Item) (o : Outcome) : Option Launch :=
  match i.job with
  | .hawal config => config.map fun content => ⟨i.tunnelId, .hawal, content, i.restartNonce⟩
  | .backhaul toml => toml.map fun content => ⟨i.tunnelId, .backhaul, content, i.restartNonce⟩
  | .paqet yaml _ _ =>
    o.network.bind fun net => yaml.map fun template => ⟨i.tunnelId, .paqet, fill net template, i.restartNonce⟩
  | .gost command _ => command.map fun args => ⟨i.tunnelId, .gost, dumps args, i.restartNonce⟩
  | .other => none

theorem Item.offer_id {i : Item} {o : Outcome} {l : Launch} (h : i.offer dumps o = some l) :
    l.tunnelId = i.tunnelId := by
  unfold Item.offer at h
  cases hj : i.job with
  | hawal config =>
    rw [hj] at h
    obtain ⟨content, -, rfl⟩ := Option.map_eq_some_iff.mp h
    rfl
  | backhaul toml =>
    rw [hj] at h
    obtain ⟨content, -, rfl⟩ := Option.map_eq_some_iff.mp h
    rfl
  | paqet yaml role corePort =>
    rw [hj] at h
    obtain ⟨net, -, h⟩ := Option.bind_eq_some_iff.mp h
    obtain ⟨template, -, rfl⟩ := Option.map_eq_some_iff.mp h
    rfl
  | gost command role =>
    rw [hj] at h
    obtain ⟨args, -, rfl⟩ := Option.map_eq_some_iff.mp h
    rfl
  | other =>
    rw [hj] at h
    cases h

/-- What one pass of the loop comes to for an item, whatever the agent has: nothing, the end of the tunnel's process,
or a start from what the item offers where that is not current. -/
inductive Pass (i : Item) (o : Outcome) : Prop where
  | idle (flag : Bool) (eq : ∀ s, applyItem dumps s i o = (s, flag))
  | stop (eq : ∀ s, applyItem dumps s i o = (s.stop i.tunnelId o.stopDeletes, true))
  | file (l : Launch) (offered : i.offer dumps o = some l) (eq : ∀ s, applyItem dumps s i o = applyFile s l o)
  | paqet (l : Launch) (yaml : Option Str) (role : Str) (corePort : ℤ) (job : i.job = .paqet yaml role corePort)
      (binary : o.binary = true) (offered : i.offer dumps o = some l)
      (eq : ∀ s, applyItem dumps s i o = applyPaqet s l role corePort o)
  | gost (l : Launch) (role : Str) (offered : i.offer dumps o = some l)
      (eq : ∀ s, applyItem dumps s i o = applyGost s l role o)

/-- Which of these it is depends on the item and on the machine only. -/
theorem applyItem_pass (i : Item) (o : Outcome) : Pass dumps i o := by
  obtain ⟨tun, nonce, job⟩ := i
  cases job with
  | hawal config =>
    cases hb : o.binary with
    | false => exact .idle true fun s => by simp [applyItem, hb]
    | true =>
      cases config with
      | none => exact .idle false fun s => by simp [applyItem, hb]
      | some content => exact .file _ rfl fun s => by simp [applyItem, hb]
  | backhaul toml =>
    cases toml with
    | none => exact .idle false fun s => rfl
    | some content => exact .file _ rfl fun s => rfl
  | paqet yaml role corePort =>
    cases hb : o.binary with
    | false => exact .idle true fun s => by simp [applyItem, hb]
    | true =>
      cases hnet : o.network with
      | none => exact .stop fun s => by simp [applyItem, hb, hnet]
      | some net =>
        cases yaml with
        | none => exact .idle false fun s => by simp [applyItem, hb, hnet]
        | some template =>
          have hoffer : (⟨tun, nonce, .paqet (some template) role corePort⟩ : Item).offer dumps o =
              some ⟨tun, .paqet, fill net template, nonce⟩ := by simp [Item.offer, hnet]
          exact .paqet _ _ role corePort rfl hb hoffer fun s => by simp [applyItem, hb, hnet]
  | gost command role =>
    cases hb : o.binary with
    | false => exact .idle true fun s => by simp [applyItem, hb]
    | true =>
      cases command with
      | none => exact .idle false fun s => by simp [applyItem, hb]
      | some args =>
        cases args with
        | nil => exact .idle true fun s => by simp [applyItem, hb]
        | cons arg args => exact .gost _ role rfl fun s => by simp [applyItem, hb]
  | other => exact .idle true fun s => rfl

/-- What an item can do to the processes. -/
def Does (s s' : HawalAgent) (tun : Str) (offer : Option Launch) : Prop :=
  Alike s s' ∨ Without s s' tun ∨ ∃ l, offer = some l ∧ l.tunnelId = tun ∧ Launched s s' l

theorem restart_does (h : Tidy s) (l : Launch) (m : Metadata) (o : Outcome) :
    Does s (s.restart l m o) l.tunnelId (some l) := by
  by_cases ho : o.launched = true
  · exact .inr (.inr ⟨l, rfl, rfl, restart_launched h l m ho⟩)
  · exact .inr (.inl (restart_without h l m ho))

theorem applyFile_does (h : Tidy s) (l : Launch) (o : Outcome) :
    Does s (applyFile s l o).1 l.tunnelId (some l) := by
  unfold applyFile
  split
  · exact .inl (Alike.refl s)
  split
  · exact restart_does h l .empty o
  · exact .inl (Alike.refl s)

theorem applyGost_does (h : Tidy s) (l : Launch) (role : Str) (o : Outcome) :
    Does s (applyGost s l role o).1 l.tunnelId (some l) := by
  unfold applyGost
  split
  · exact .inl (Alike.refl s)
  · exact restart_does h l (.gost role) o

theorem applyPaqet_does (h : Tidy s) (l : Launch) (role : Str) (corePort : ℤ) (o : Outcome) :
    Does s (applyPaqet s l role corePort o).1 l.tunnelId (some l) := by
  unfold applyPaqet
  split
  · exact .inl (Alike.refl s)
  have hw := stop_without h l.tunnelId o.stopDeletes
  split
  · -- the rules are added to an agent that is without the tunnel
    have ha : ∀ rules, Alike (s.stop l.tunnelId o.stopDeletes) { s.stop l.tunnelId o.stopDeletes with rules := rules } :=
      fun _ => ⟨rfl, rfl, rfl, rfl, rfl⟩
    have hw' := fun rules => hw.alike (ha rules)
    dsimp only
    split
    · rcases restart_does (h.without (hw' _)) l (.paqet role corePort) o with hdoes | hdoes | ⟨l', hl', hid, hdoes⟩
      · exact .inr (.inl ((hw' _).alike hdoes))
      · exact .inr (.inl ((hw' _).again hdoes))
      · cases hl'
        exact .inr (.inr ⟨l, rfl, rfl, hdoes.of_without (hw' _)⟩)
    · exact .inr (.inl (hw' _))
  · exact .inr (.inl hw)

/-- The three things that an item can do. -/
theorem applyItem_cases (h : Tidy s) (i : Item) (o : Outcome) :
    Does s (applyItem dumps s i o).1 i.tunnelId (i.offer dumps o) := by
  cases applyItem_pass dumps i o with
  | idle flag heq =>
    rw [heq]
    exact .inl (Alike.refl s)
  | stop heq =>
    rw [heq]
    exact .inr (.inl (stop_without h i.tunnelId o.stopDeletes))
  | file l hoffer heq =>
    rw [heq, hoffer, ← Item.offer_id dumps hoffer]
    exact applyFile_does h l o
  | paqet l yaml role corePort hjob hbinary hoffer heq =>
    rw [heq, hoffer, ← Item.offer_id dumps hoffer]
    exact applyPaqet_does h l role corePort o
  | gost l role hoffer heq =>
    rw [heq, hoffer, ← Item.offer_id dumps hoffer]
    exact applyGost_does h l role o

/-! ### Runs -/

theorem Does.tidy {tun : Str} {offer : Option Launch} (hd : Does s s' tun offer) (h : Tidy s) : Tidy s' := by
  rcases hd with hd | hd | ⟨l, -, -, hd⟩
  · exact h.alike hd
  · exact h.without hd
  · exact h.launched hd

/-- A launch is an earlier one or the offered one. -/
theorem Does.origin {tun : Str} {offer : Option Launch} (hd : Does s s' tun offer) {l : Launch} (hl : l ∈ s'.launches) :
    l ∈ s.launches ∨ offer = some l := by
  rcases hd with hd | hd | ⟨l', hoffer, -, hd⟩
  · exact .inl (hd.launches ▸ hl)
  · exact .inl (hd.launches ▸ hl)
  · rw [hd.launches] at hl
    rcases List.mem_append.mp hl with hl | hl
    · exact .inl hl
    · rw [List.mem_singleton.mp hl]
      exact .inr hoffer

/-- What the items of a call would start processes from. -/
def offersOf (items : List (Option Item × Outcome)) : List Launch :=
  items.filterMap fun io => io.1.bind fun i => i.offer dumps io.2

theorem applyItems_tidy (items : List (Option Item × Outcome)) : ∀ {s : HawalAgent}, Tidy s →
    Tidy (applyItems dumps s items).1 ∧
      ∀ l ∈ (applyItems dumps s items).1.launches, l ∈ s.launches ∨ l ∈ offersOf dumps items := by
  induction items with
  | nil => exact fun h => ⟨h, fun l hl => .inl hl⟩
  | cons io items ih =>
    intro s h
    obtain ⟨i, o⟩ := io
    cases i with
    | none => exact ⟨h, fun l hl => .inl hl⟩
    | some i =>
      have hdoes := applyItem_cases dumps h i o
      have hfirst : ∀ l ∈ (applyItem dumps s i o).1.launches, l ∈ s.launches ∨ l ∈ offersOf dumps ((some i, o) :: items) := by
        intro l hl
        refine (hdoes.origin hl).imp_right fun hoffer => List.mem_filterMap.mpr ?_
        exact ⟨(some i, o), List.mem_cons_self, hoffer⟩
      simp only [applyItems]
      split
      · obtain ⟨htidy, horigin⟩ := ih (hdoes.tidy h)
        refine ⟨htidy, fun l hl => ?_⟩
        rcases horigin l hl with hl | hl
        · exact hfirst l hl
        · obtain ⟨io, hio, hoffer⟩ := List.mem_filterMap.mp hl
          exact .inr (List.mem_filterMap.mpr ⟨io, List.mem_cons_of_mem _ hio, hoffer⟩)
      · exact ⟨hdoes.tidy h, hfirst⟩

theorem stopAll_tidy (d : Str → Deletes) (tuns : List Str) : ∀ {s : HawalAgent}, Tidy s →
    Tidy (stopAll d s tuns) ∧ (stopAll d s tuns).launches = s.launches := by
  induction tuns with
  | nil => exact fun h => ⟨h, rfl⟩
  | cons tun tuns ih =>
    intro s h
    have hw := stop_without h tun (d tun)
    obtain ⟨htidy, hlaunches⟩ := ih (h.without hw)
    exact ⟨htidy, hlaunches.trans hw.launches⟩

theorem Tidy.kill (h : Tidy s) (pid : ℕ) : Tidy (s.kill pid) where
  configs := h.configs
  metadata := h.metadata
  tracked := h.tracked
  alive := fun p hp => h.alive p (mem_kill.mp hp).1

/-- What an event would start processes from. -/
def Event.offers : Event → List Launch
  | .apply items _ => offersOf dumps items
  | _ => []

theorem agentStep_tidy {e : Event} (hstep : agentStep dumps s e = some s') (h : Tidy s) :
    Tidy s' ∧ ∀ l ∈ s'.launches, l ∈ s.launches ∨ l ∈ e.offers dumps := by
  cases e with
  | apply items d =>
    cases hstep
    obtain ⟨htidy, horigin⟩ := applyItems_tidy dumps items h
    simp only [applyConfigs]
    split
    · obtain ⟨htidy', hlaunches⟩ := stopAll_tidy d
        ((applyItems dumps s items).1.processes.keys.filter fun tun => decide (tun ∉ activeIds items)) htidy
      exact ⟨htidy', fun l hl => horigin l (hlaunches ▸ hl)⟩
    · exact ⟨htidy, horigin⟩
  | died pid =>
    cases hstep
    exact ⟨h.kill pid, fun l hl => .inl hl⟩
  | shutdown d =>
    cases hstep
    obtain ⟨htidy, hlaunches⟩ := stopAll_tidy d s.processes.keys h
    exact ⟨htidy, fun l hl => .inl (hlaunches ▸ hl)⟩

/-- Every agent is tidy, and its processes were launched from what was offered. -/
theorem exec_tidy {es : List Event} : ∀ {s s' : HawalAgent}, Tidy s → exec (agentStep dumps) s es = some s' →
    Tidy s' ∧ ∀ l ∈ s'.launches, l ∈ s.launches ∨ l ∈ es.flatMap (Event.offers dumps) := by
  induction es with
  | nil =>
    intro s s' h hexec
    rw [exec_nil, Option.some.injEq] at hexec
    exact hexec ▸ ⟨h, fun l hl => .inl hl⟩
  | cons e es ih =>
    intro s s' h hexec
    obtain ⟨t, he, ht⟩ := exec_cons_eq_some.mp hexec
    obtain ⟨htidy, hfirst⟩ := agentStep_tidy dumps he h
    obtain ⟨htidy', hrest⟩ := ih htidy ht
    refine ⟨htidy', fun l hl => ?_⟩
    rw [List.flatMap_cons, List.mem_append]
    rcases hrest l hl with hl | hl
    · exact (hfirst l hl).imp_right .inl
    · exact .inr (.inr hl)

end Hawal.Agent
