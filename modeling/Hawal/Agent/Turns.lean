import Hawal.Agent.Ports
import Hawal.Agent.Reconcile

/-!
# The turn of an item

One pass of the loop of `apply_configs`, with what the model of the loop leaves out: a directory in the place of the
Hawal core that cannot be removed. A pass depends on its own tunnel and on the rules of the ports that it comes to
open, and on nothing else of the agent (`attempt_same`); it leaves other tunnels as they are (`attempt_agree`), and
the rules of ports that it does not use (`attempt_other`). `Turn.Raises` says when an exception leaves it.
-/

namespace Hawal.Agent.Blocking

open Hawal.Lib Hawal.Lib.Python

variable (dumps : List Str → Str)

/-- The turn of an item in the loop. -/
structure Turn where
  item : Item
  outcome : Outcome
  /-- There is no directory in the place of the Hawal core, or it can be removed. -/
  removed : Bool

/-- The tunnel of the turn. -/
def Turn.tunnelId (t : Turn) : Str := t.item.tunnelId

/-- One pass of the loop. The flag is false when an exception was raised. -/
def attempt (s : HawalAgent) (t : Turn) : HawalAgent × Bool :=
  match t.item.job, t.removed with
  -- `shutil.rmtree` stands before the `try` of `ensure_hawal_core_binary`
  | .hawal _, false => (s, false)
  | _, _ => applyItem dumps s t.item t.outcome

/-! ### Items that raise -/

/-- There is nothing to write the file from, or it has to be written and cannot be. -/
def Turn.Unwritten (s : HawalAgent) (t : Turn) : Prop :=
  ∀ l, t.item.offer dumps t.outcome = some l → s.isCurrent l = false ∧ t.outcome.written = false

/-- The item raises. -/
def Turn.Raises (s : HawalAgent) (t : Turn) : Prop :=
  match t.item.job with
  | .hawal _ => t.removed = false ∨ t.outcome.binary = true ∧ t.Unwritten dumps s
  | .backhaul _ => t.Unwritten dumps s
  | .paqet _ _ _ => t.outcome.binary = true ∧ t.outcome.network.isSome = true ∧ t.Unwritten dumps s
  | .gost command _ => t.outcome.binary = true ∧ command = none
  | .other => False

/-! ### Ports -/

/-- The port whose rules the item comes to add: that of a Paqet server which is not current, when its file could be
written. -/
def Turn.opens (s : HawalAgent) (t : Turn) : Option ℤ :=
  match t.item.job with
  | .paqet _ role corePort =>
    if t.outcome.binary && t.outcome.written && (t.item.offer dumps t.outcome).any fun l => !s.isCurrent l then
      openedBy role corePort
    else none
  | _ => none

/-- The agent has the item's tunnel under this port, or the item comes to add its rules. -/
def Turn.Uses (s : HawalAgent) (t : Turn) (p : ℤ) : Prop := s.port t.tunnelId = some p ∨ t.opens dumps s = some p

/-- None of the others uses a port that the item uses. -/
def Apart (s : HawalAgent) (t : Turn) (others : List Turn) : Prop :=
  ∀ u ∈ others, ∀ p, u.Uses dumps s p → ¬ t.Uses dumps s p

instance (s : HawalAgent) (t : Turn) (p : ℤ) : Decidable (t.Uses dumps s p) := inferInstanceAs (Decidable (_ ∨ _))

instance (s : HawalAgent) (t : Turn) (others : List Turn) : Decidable (Apart dumps s t others) :=
  decidable_of_iff (∀ u ∈ others, ∀ p ∈ (s.port u.tunnelId).toList ++ (u.opens dumps s).toList, ¬ t.Uses dumps s p)
    (by simp only [Apart, Turn.Uses, List.mem_append, Option.mem_toList])

/-! ### What there is of a tunnel -/

/-- A tracked process: which one of before it is, unless it is new, whether it runs, and what it
was started from. -/
structure Seen where
  before : Option ℕ
  runs : Bool
  launch : Option Launch

/-- What the three dictionaries have for a tunnel. -/
structure Kept where
  process : Option Seen
  config : Option Str
  metadata : Option Metadata

/-- A process, when those up to number `n` were there before. -/
def seen (n : ℕ) (s : HawalAgent) (pid : ℕ) : Seen where
  before := if pid < n then some pid else none
  runs := decide (pid ∈ s.alive)
  launch := s.launches[pid]?

/-- What the agent has for the tunnel. -/
def tunnel (n : ℕ) (s : HawalAgent) (k : Str) : Kept where
  process := (s.processes.lookup k).map (seen n s)
  config := s.configs.lookup k
  metadata := s.metadata.lookup k

/-- The agents have the same for these tunnels. -/
def Agree (n : ℕ) (K : Str → Prop) (s s' : HawalAgent) : Prop := ∀ k, K k → tunnel n s k = tunnel n s' k

variable {n : ℕ} {K : Str → Prop} {s s' : HawalAgent}

theorem Agree.refl (s : HawalAgent) : Agree n K s s := fun _ _ => rfl

/-- A process is current in both agents or in none. -/
theorem isCurrent_congr {l : Launch} (h : tunnel n s l.tunnelId = tunnel n s' l.tunnelId) :
    s.isCurrent l = s'.isCurrent l := by
  have hprocess := congrArg Kept.process h
  have hconfig := congrArg Kept.config h
  simp only [tunnel] at hprocess hconfig
  unfold HawalAgent.isCurrent HawalAgent.isRunning
  rw [hconfig]
  cases hp : s.processes.lookup l.tunnelId <;> cases hp' : s'.processes.lookup l.tunnelId
  · rfl
  · simp [hp, hp'] at hprocess
  · simp [hp, hp'] at hprocess
  · rename_i pid pid'
    rw [hp, hp', Option.map_some, Option.map_some, Option.some.injEq] at hprocess
    have hruns : decide (pid ∈ s.alive) = decide (pid' ∈ s'.alive) := congrArg Seen.runs hprocess
    simp only [hruns]

/-- A tunnel without a process. -/
theorem tunnel_without {tun : Str} (hw : Without s s' tun) : tunnel n s' tun = ⟨none, none, none⟩ := by
  simp [tunnel, hw.processes, hw.configs, hw.metadata]

theorem tunnel_alike (ha : Alike s s') (k : Str) : tunnel n s' k = tunnel n s k := by
  have hseen : seen n s' = seen n s := by
    funext pid
    simp only [seen, ha.launches, ha.alive]
  simp only [tunnel, hseen, ha.processes, ha.configs, ha.metadata]

/-- What an item does to its tunnel leaves the others as they are. -/
theorem tunnel_other (h : Tidy s) {tun k : Str} {offer : Option Launch} (hd : Does s s' tun offer) (hk : k ≠ tun) :
    tunnel n s' k = tunnel n s k := by
  have hseen : ∀ pid, s.processes.lookup k = some pid → s.launches <+: s'.launches →
      (pid ∈ s'.alive ↔ pid ∈ s.alive) → seen n s' pid = seen n s pid := by
    rintro pid hpid ⟨more, hmore⟩ halive
    simp only [seen, halive, ← hmore, List.getElem?_append_left (h.lt hpid)]
  have hsame : Untouched s s' k → s.launches <+: s'.launches → s'.metadata.lookup k = s.metadata.lookup k →
      tunnel n s' k = tunnel n s k := by
    intro hu hlaunches hmetadata
    simp only [tunnel, hu.processes, hu.configs, hmetadata]
    cases hp : s.processes.lookup k with
    | none => rfl
    | some pid => rw [Option.map_some, Option.map_some, hseen pid hp hlaunches (hu.alive pid hp)]
  rcases hd with hd | hd | ⟨l, -, rfl, hd⟩
  · exact tunnel_alike hd k
  · exact hsame (hd.untouched h hk) (hd.launches ▸ List.prefix_rfl) (by rw [hd.metadata, if_neg hk])
  · obtain ⟨m, hm⟩ := hd.metadata
    exact hsame (hd.untouched h hk) (hd.launches ▸ List.prefix_append _ _) (by rw [hm, if_neg hk])

/-- What there is of a tunnel after its process was started does not depend on what was there. -/
theorem restart_tunnel (h : Tidy s) (hn : n ≤ s.launches.length) (l : Launch) (m : Metadata) (o : Outcome) :
    tunnel n (s.restart l m o) l.tunnelId =
      if o.launched = true then ⟨some ⟨none, true, some l⟩, some (marker l.content l.nonce), some m⟩
      else ⟨none, none, none⟩ := by
  split
  · rename_i ho
    have hl := restart_launched h l m ho
    have hmetadata : (s.restart l m o).metadata.lookup l.tunnelId = some m := by
      rw [HawalAgent.restart, if_pos ho]
      exact AList.lookup_insert _
    have hnew : ¬ s.launches.length < n := Nat.not_lt.mpr hn
    have halive : s.launches.length ∈ (s.restart l m o).alive := (hl.alive _).mpr (.inl rfl)
    simp [tunnel, seen, hl.processes, hl.configs, hl.launches, hmetadata, hnew, halive]
  · rename_i ho
    exact tunnel_without (restart_without h l m ho)

/-! ### The rules of a tunnel -/

theorem metadata_congr {k : Str} (h : tunnel n s k = tunnel n s' k) : s.metadata.lookup k = s'.metadata.lookup k :=
  congrArg Kept.metadata h

/-- Which ports an item uses depends on its own tunnel only. -/
theorem uses_congr {t : Turn} (h : tunnel n s t.tunnelId = tunnel n s' t.tunnelId) (p : ℤ) :
    t.Uses dumps s p ↔ t.Uses dumps s' p := by
  have hport : s.port t.tunnelId = s'.port t.tunnelId := by
    rw [HawalAgent.port, HawalAgent.port, metadata_congr h]
  have hopens : t.opens dumps s = t.opens dumps s' := by
    unfold Turn.opens Item.offer
    cases hj : t.item.job with
    | paqet yaml role corePort =>
      cases t.outcome.network with
      | none => rfl
      | some net =>
        cases yaml with
        | none => rfl
        | some template =>
          have hcur := isCurrent_congr (l := ⟨t.item.tunnelId, .paqet, fill net template, t.item.restartNonce⟩) h
          simp only [Option.bind_some, Option.map_some, Option.any_some, hcur]
    | _ => rfl
  rw [Turn.Uses, Turn.Uses, hport, hopens]

/-- A Paqet item that comes to the firewall. -/
theorem opens_paqet {t : Turn} {l : Launch} {yaml : Option Str} {role : Str} {corePort : ℤ}
    (hjob : t.item.job = .paqet yaml role corePort) (hbinary : t.outcome.binary = true)
    (hoffer : t.item.offer dumps t.outcome = some l) (hstale : s.isCurrent l = false)
    (hwritten : t.outcome.written = true) : t.opens dumps s = openedBy role corePort := by
  simp only [Turn.opens, hjob, hbinary, hwritten, hoffer, Option.any_some, hstale, Bool.not_false, Bool.and_self, if_true]

/-! ### The turn of an item -/

/-- What a pass of the loop makes of its tunnel and of these rules is the same in both agents. -/
structure SamePass (n : ℕ) (R : Rule → Prop) (tun : Str) (r r' : HawalAgent × Bool) : Prop where
  flag : r.2 = r'.2
  tunnel : tunnel n r.1 tun = tunnel n r'.1 tun
  rules : SameRules R r.1.rules r'.1.rules

theorem stop_same (h : Tidy s) (h' : Tidy s') (tun : Str) (d : Deletes) :
    tunnel n (s.stop tun d) tun = tunnel n (s'.stop tun d) tun := by
  rw [tunnel_without (stop_without h tun d), tunnel_without (stop_without h' tun d)]

section Pass

variable (h : Tidy s) (h' : Tidy s') (hn : n ≤ s.launches.length) (hn' : n ≤ s'.launches.length)
  (hrules : SameRules R s.rules s'.rules)
include h h' hn hn' hrules

theorem restart_same {l : Launch} (hsame : tunnel n s l.tunnelId = tunnel n s' l.tunnelId) (m : Metadata)
    (o : Outcome) :
    SamePass n R l.tunnelId (s.restart l m o, true) (s'.restart l m o, true) where
  flag := rfl
  tunnel := by rw [restart_tunnel h hn, restart_tunnel h' hn']
  rules := hrules.restart (metadata_congr hsame) m o

theorem applyFile_same {l : Launch} (hsame : tunnel n s l.tunnelId = tunnel n s' l.tunnelId) (o : Outcome) :
    SamePass n R l.tunnelId (applyFile s l o) (applyFile s' l o) := by
  unfold applyFile
  rw [isCurrent_congr hsame]
  split
  · exact ⟨rfl, hsame, hrules⟩
  split
  · exact restart_same h h' hn hn' hrules hsame .empty o
  · exact ⟨rfl, hsame, hrules⟩

theorem applyGost_same {l : Launch} (hsame : tunnel n s l.tunnelId = tunnel n s' l.tunnelId) (role : Str)
    (o : Outcome) :
    SamePass n R l.tunnelId (applyGost s l role o) (applyGost s' l role o) := by
  unfold applyGost
  rw [isCurrent_congr hsame]
  split
  · exact ⟨rfl, hsame, hrules⟩
  · exact restart_same h h' hn hn' hrules hsame (.gost role) o

/-- Adding the rules succeeds in both or in neither when they are among those that are the same. -/
theorem applyPaqet_same {l : Launch} (hsame : tunnel n s l.tunnelId = tunnel n s' l.tunnelId) {role : Str}
    {corePort : ℤ} {o : Outcome} (hR : s.isCurrent l = false → o.written = true → ∀ r ∈ rulesFor role corePort, R r) :
    SamePass n R l.tunnelId (applyPaqet s l role corePort o) (applyPaqet s' l role corePort o) := by
  unfold applyPaqet
  rw [isCurrent_congr hsame] at hR ⊢
  split
  · exact ⟨rfl, hsame, hrules⟩
  rename_i hstale
  have hw := stop_without h l.tunnelId o.stopDeletes
  have hw' := stop_without h' l.tunnelId o.stopDeletes
  have hstopped := hrules.stop (metadata_congr hsame) o.stopDeletes
  have hwithout := stop_same (n := n) h h' l.tunnelId o.stopDeletes
  split
  · rename_i hwritten
    obtain ⟨hflag, hconfigured⟩ := hstopped.configure o (hR (Bool.not_eq_true _ ▸ hstale) hwritten)
    have ha : ∀ (s : HawalAgent) rules, Alike s { s with rules := rules } := fun _ _ => ⟨rfl, rfl, rfl, rfl, rfl⟩
    dsimp only
    rw [hflag]
    split
    · refine restart_same ((h.without hw).alike (ha _ _)) ((h'.without hw').alike (ha _ _)) ?_ ?_ hconfigured ?_ _ o
      · exact hw.launches ▸ hn
      · exact hw'.launches ▸ hn'
      · exact hwithout
    · exact ⟨rfl, hwithout, hconfigured⟩
  · exact ⟨rfl, hwithout, hstopped⟩

/-- A pass of the loop looks at its own tunnel and at the rules of its ports, and at nothing else of the agent. -/
theorem applyItem_same {t : Turn} (hsame : tunnel n s t.tunnelId = tunnel n s' t.tunnelId)
    (hR : ∀ p, t.opens dumps s = some p → ∀ r ∈ paqetRules p, R r) :
    SamePass n R t.tunnelId (applyItem dumps s t.item t.outcome) (applyItem dumps s' t.item t.outcome) := by
  cases applyItem_pass dumps t.item t.outcome with
  | idle flag heq =>
    rw [heq, heq]
    exact ⟨rfl, hsame, hrules⟩
  | stop heq =>
    rw [heq, heq]
    exact ⟨rfl, stop_same h h' t.tunnelId t.outcome.stopDeletes, hrules.stop (metadata_congr hsame) t.outcome.stopDeletes⟩
  | file l hoffer heq =>
    have hid : l.tunnelId = t.tunnelId := Item.offer_id dumps hoffer
    rw [heq, heq, ← hid]
    exact applyFile_same h h' hn hn' hrules (hid ▸ hsame) t.outcome
  | paqet l yaml role corePort hjob hbinary hoffer heq =>
    have hid : l.tunnelId = t.tunnelId := Item.offer_id dumps hoffer
    rw [heq, heq, ← hid]
    refine applyPaqet_same h h' hn hn' hrules (hid ▸ hsame) fun hstale hwritten => forall_rulesFor fun p hp => hR p ?_
    exact (opens_paqet dumps hjob hbinary hoffer hstale hwritten).trans hp
  | gost l role hoffer heq =>
    have hid : l.tunnelId = t.tunnelId := Item.offer_id dumps hoffer
    rw [heq, heq, ← hid]
    exact applyGost_same h h' hn hn' hrules (hid ▸ hsame) role t.outcome

end Pass

/-- What a turn can do to the processes. -/
theorem attempt_does (h : Tidy s) (t : Turn) :
    Does s (attempt dumps s t).1 t.tunnelId (t.item.offer dumps t.outcome) := by
  unfold attempt
  split
  · exact .inl (Alike.refl s)
  · exact applyItem_cases dumps h t.item t.outcome

theorem does_launches {tun : Str} {offer : Option Launch} (hd : Does s s' tun offer) : s.launches <+: s'.launches := by
  rcases hd with hd | hd | ⟨l, -, -, hd⟩
  · exact hd.launches ▸ List.prefix_rfl
  · exact hd.launches ▸ List.prefix_rfl
  · exact hd.launches ▸ List.prefix_append _ _

/-- A turn is the same in agents that agree on its tunnel and on the rules that it comes to add. -/
theorem attempt_same (h : Tidy s) (h' : Tidy s') (hn : n ≤ s.launches.length) (hn' : n ≤ s'.launches.length)
    (hrules : SameRules R s.rules s'.rules) {t : Turn} (hsame : tunnel n s t.tunnelId = tunnel n s' t.tunnelId)
    (hR : ∀ p, t.Uses dumps s p → ∀ r ∈ paqetRules p, R r) :
    SamePass n R t.tunnelId (attempt dumps s t) (attempt dumps s' t) := by
  unfold attempt
  split
  · exact ⟨rfl, hsame, hrules⟩
  · exact applyItem_same dumps h h' hn hn' hrules hsame fun p hp => hR p (.inr hp)

section Others

/-! Rules of ports that an item does not use. -/

theorem applyPaqet_other {l : Launch} {role : Str} {corePort : ℤ} {o : Outcome}
    (hport : ∀ p, s.port l.tunnelId = some p → ∀ r ∈ paqetRules p, ¬ R r)
    (hopens : s.isCurrent l = false → o.written = true → ∀ r ∈ rulesFor role corePort, ¬ R r) :
    SameRules R (applyPaqet s l role corePort o).1.rules s.rules := by
  unfold applyPaqet
  split
  · exact SameRules.refl _
  rename_i hstale
  have hstopped := sameRules_stop hport o.stopDeletes
  split
  · rename_i hwritten
    have hconfigured := (sameRules_configure o (hopens (Bool.not_eq_true _ ▸ hstale) hwritten) _).trans hstopped
    dsimp only
    split
    · refine (sameRules_restart (fun p hp => ?_) _ o).trans hconfigured
      -- the tunnel is stopped already
      have hnone : (s.stop l.tunnelId o.stopDeletes).port l.tunnelId = none := by
        rw [HawalAgent.port, metadata_stop]
        rfl
      exact absurd (hnone.symm.trans hp) (by simp)
    · exact hconfigured
  · exact hstopped

theorem applyFile_other {l : Launch} {o : Outcome}
    (hport : ∀ p, s.port l.tunnelId = some p → ∀ r ∈ paqetRules p, ¬ R r) :
    SameRules R (applyFile s l o).1.rules s.rules := by
  unfold applyFile
  split
  · exact SameRules.refl _
  split
  · exact sameRules_restart hport .empty o
  · exact SameRules.refl _

theorem applyGost_other {l : Launch} {role : Str} {o : Outcome}
    (hport : ∀ p, s.port l.tunnelId = some p → ∀ r ∈ paqetRules p, ¬ R r) :
    SameRules R (applyGost s l role o).1.rules s.rules := by
  unfold applyGost
  split
  · exact SameRules.refl _
  · exact sameRules_restart hport (.gost role) o

theorem applyItem_other {t : Turn} (hR : ∀ p, t.Uses dumps s p → ∀ r ∈ paqetRules p, ¬ R r) :
    SameRules R (applyItem dumps s t.item t.outcome).1.rules s.rules := by
  have hport : ∀ l, t.item.offer dumps t.outcome = some l → ∀ p, s.port l.tunnelId = some p →
      ∀ r ∈ paqetRules p, ¬ R r := by
    intro l hoffer p hp
    rw [Item.offer_id dumps hoffer] at hp
    exact hR p (.inl hp)
  cases applyItem_pass dumps t.item t.outcome with
  | idle flag heq =>
    rw [heq]
    exact SameRules.refl _
  | stop heq =>
    rw [heq]
    exact sameRules_stop (fun p hp => hR p (.inl hp)) t.outcome.stopDeletes
  | file l hoffer heq =>
    rw [heq]
    exact applyFile_other (hport l hoffer)
  | paqet l yaml role corePort hjob hbinary hoffer heq =>
    rw [heq]
    refine applyPaqet_other (hport l hoffer) fun hstale hwritten => forall_rulesFor fun p hp => hR p (.inr ?_)
    exact (opens_paqet dumps hjob hbinary hoffer hstale hwritten).trans hp
  | gost l role hoffer heq =>
    rw [heq]
    exact applyGost_other (hport l hoffer)

theorem attempt_other {t : Turn} (hR : ∀ p, t.Uses dumps s p → ∀ r ∈ paqetRules p, ¬ R r) :
    SameRules R (attempt dumps s t).1.rules s.rules := by
  unfold attempt
  split
  · exact SameRules.refl _
  · exact applyItem_other dumps hR

end Others

theorem applyFile_flag (s : HawalAgent) (l : Launch) (o : Outcome) :
    (applyFile s l o).2 = true ↔ ¬ (s.isCurrent l = false ∧ o.written = false) := by
  unfold applyFile
  split
  · simp [*]
  split
  · simp [*]
  · simp_all

theorem applyPaqet_flag (s : HawalAgent) (l : Launch) (role : Str) (corePort : ℤ) (o : Outcome) :
    (applyPaqet s l role corePort o).2 = true ↔ ¬ (s.isCurrent l = false ∧ o.written = false) := by
  unfold applyPaqet
  split
  · simp [*]
  split
  · dsimp only
    split <;> simp [*]
  · simp_all

theorem applyGost_flag (s : HawalAgent) (l : Launch) (role : Str) (o : Outcome) : (applyGost s l role o).2 = true := by
  unfold applyGost
  split <;> rfl

/-- The flag of a turn tells whether the item raises. -/
theorem attempt_flag (s : HawalAgent) (t : Turn) : (attempt dumps s t).2 = true ↔ ¬ t.Raises dumps s := by
  unfold attempt Turn.Raises Turn.Unwritten Item.offer applyItem
  cases hj : t.item.job with
  | hawal config =>
    cases hr : t.removed with
    | false => simp
    | true =>
      cases hb : t.outcome.binary with
      | false => simp
      | true =>
        cases config with
        | none => simp
        | some content =>
          simp only [if_true, Bool.true_eq_false, false_or, true_and, Option.map_some, Option.some.injEq, forall_eq']
          exact applyFile_flag _ _ _
  | backhaul toml =>
    cases toml with
    | none => simp
    | some content =>
      simp only [Option.map_some, Option.some.injEq, forall_eq']
      exact applyFile_flag _ _ _
  | paqet yaml role corePort =>
    cases hb : t.outcome.binary with
    | false => simp
    | true =>
      cases hnet : t.outcome.network with
      | none => simp
      | some net =>
        cases yaml with
        | none => simp
        | some template =>
          simp only [if_true, true_and, Option.isSome_some, Option.bind_some, Option.map_some, Option.some.injEq,
            forall_eq']
          exact applyPaqet_flag _ _ _ _ _
  | gost command role =>
    cases hb : t.outcome.binary with
    | false => simp
    | true =>
      cases command with
      | none => simp
      | some args =>
        cases args with
        | nil => simp
        | cons arg args => simpa using applyGost_flag _ _ role _
  | other => simp

/-- Whether an item raises depends on its own tunnel only. -/
theorem raises_congr {t : Turn} (hsame : tunnel n s t.tunnelId = tunnel n s' t.tunnelId) :
    t.Raises dumps s ↔ t.Raises dumps s' := by
  have hunwritten : t.Unwritten dumps s ↔ t.Unwritten dumps s' := by
    refine forall₂_congr fun l hl => ?_
    have hid : l.tunnelId = t.tunnelId := Item.offer_id dumps hl
    rw [isCurrent_congr (hid ▸ hsame)]
  unfold Turn.Raises
  rw [hunwritten]

/-- A turn leaves other tunnels as they are. -/
theorem attempt_agree (h : Tidy s) (t : Turn) : Agree n (fun k => k ≠ t.tunnelId) (attempt dumps s t).1 s := fun _ hk =>
  tunnel_other h (attempt_does dumps h t) hk

theorem attempt_tidy (h : Tidy s) (t : Turn) :
    Tidy (attempt dumps s t).1 ∧ s.launches <+: (attempt dumps s t).1.launches :=
  ⟨(attempt_does dumps h t).tidy h, does_launches (attempt_does dumps h t)⟩

end Hawal.Agent.Blocking
