import Hawal.Agent.Firewall

/-!
# What the agent leaves of the rules

How often a rule is there depends, after each thing that the agent does, on how often it was there before: two
firewalls that are the same in some rules (`SameRules`) stay so when the same is done to both, and a tunnel that is
stopped or started touches only the rules of its own ports. With the rules goes the order in which the agent has
its tunnels (`unlisted`), in which it stops those that are missing from a list.
-/

namespace Hawal.Agent

open Hawal.Lib Hawal.Lib.Python

variable (dumps : List Str → Str)

/-- Each of these rules is there as often in both. -/
def SameRules (R : Rule → Prop) (rules rules' : List Rule) : Prop := ∀ r, R r → rules.count r = rules'.count r

variable {R : Rule → Prop} {rules rules' rules'' : List Rule}

theorem SameRules.refl (rules : List Rule) : SameRules R rules rules := fun _ _ => rfl

theorem SameRules.trans (h : SameRules R rules rules') (h' : SameRules R rules' rules'') : SameRules R rules rules'' :=
  fun r hr => (h r hr).trans (h' r hr)

theorem SameRules.symm (h : SameRules R rules rules') : SameRules R rules' rules := fun r hr => (h r hr).symm

theorem SameRules.mem_iff (h : SameRules R rules rules') {r : Rule} (hr : R r) : r ∈ rules ↔ r ∈ rules' := by
  rw [← List.count_pos_iff, ← List.count_pos_iff, h r hr]

theorem count_erases (r x : Rule) (k : ℕ) : ∀ rules : List Rule,
    (Nat.repeat (fun l : List Rule => l.erase x) k rules).count r =
      if r = x then rules.count r - k else rules.count r := by
  induction k with
  | zero => exact fun rules => by simp [Nat.repeat]
  | succ k ih =>
    intro rules
    rw [Nat.repeat]
    by_cases hr : r = x
    · subst hr
      rw [List.count_erase_self, ih, if_pos rfl, if_pos rfl, Nat.sub_sub]
    · rw [List.count_erase_of_ne hr, ih, if_neg hr, if_neg hr]

theorem count_deleteRule (d : Deletes) (rules : List Rule) (x r : Rule) : (deleteRule d rules x).count r =
    if r = x then (match d x with | none => 0 | some k => rules.count r - k) else rules.count r := by
  unfold deleteRule
  cases d x with
  | none =>
    dsimp only
    by_cases hr : r = x
    · rw [if_pos hr]
      exact List.count_eq_zero.mpr fun hmem => of_decide_eq_true (List.mem_filter.mp hmem).2 hr
    · rw [if_neg hr]
      exact List.count_filter (decide_eq_true hr)
  | some k => exact count_erases r x k rules

/-- Deleting the same rules in both. -/
theorem SameRules.deleteAll (d : Deletes) (rs : List Rule) : ∀ {rules rules' : List Rule}, SameRules R rules rules' →
    SameRules R (rs.foldl (deleteRule d) rules) (rs.foldl (deleteRule d) rules') := by
  induction rs with
  | nil => exact id
  | cons x rs ih =>
    intro rules rules' h
    refine ih fun r hr => ?_
    rw [count_deleteRule, count_deleteRule, h r hr]

/-- Deleting other rules. -/
theorem sameRules_deleteAll (d : Deletes) {rs : List Rule} (hrs : ∀ r ∈ rs, ¬ R r) : ∀ rules : List Rule,
    SameRules R (rs.foldl (deleteRule d) rules) rules := by
  induction rs with
  | nil => exact SameRules.refl
  | cons x rs ih =>
    intro rules
    rw [List.forall_mem_cons] at hrs
    refine (ih hrs.2 _).trans fun r hr => ?_
    have hne : r ≠ x := fun hrx => hrs.1 (hrx ▸ hr)
    rw [count_deleteRule, if_neg hne]

/-- Adding the same rules to both has the same success. -/
theorem SameRules.addRules (o : Outcome) {rs : List Rule} (hrs : ∀ r ∈ rs, R r) : ∀ {rules rules' : List Rule},
    SameRules R rules rules' → (addRules o rules rs).2 = (addRules o rules' rs).2 ∧
      SameRules R (Agent.addRules o rules rs).1 (Agent.addRules o rules' rs).1 := by
  induction rs with
  | nil => exact fun h => ⟨rfl, h⟩
  | cons x rs ih =>
    intro rules rules' h
    rw [List.forall_mem_cons] at hrs
    have hmem : decide (x ∈ rules) = decide (x ∈ rules') := decide_eq_decide.mpr (h.mem_iff hrs.1)
    rw [Agent.addRules, Agent.addRules, hmem]
    split
    · exact ih hrs.2 h
    split
    · refine ih hrs.2 fun r hr => ?_
      rw [List.count_cons, List.count_cons, h r hr]
    · exact ⟨rfl, h⟩

/-- Adding other rules. -/
theorem sameRules_addRules (o : Outcome) {rs : List Rule} (hrs : ∀ r ∈ rs, ¬ R r) : ∀ rules : List Rule,
    SameRules R (addRules o rules rs).1 rules := by
  induction rs with
  | nil => exact SameRules.refl
  | cons x rs ih =>
    intro rules
    rw [List.forall_mem_cons] at hrs
    rw [addRules]
    split
    · exact ih hrs.2 rules
    split
    · refine (ih hrs.2 _).trans fun r hr => ?_
      have hne : x ≠ r := fun hxr => hrs.1 (hxr ▸ hr)
      exact List.count_cons_of_ne hne
    · exact SameRules.refl rules

theorem SameRules.configure (o : Outcome) {role : Str} {corePort : ℤ} (hrs : ∀ r ∈ rulesFor role corePort, R r)
    (h : SameRules R rules rules') : (configure o rules role corePort).2 = (configure o rules' role corePort).2 ∧
      SameRules R (configure o rules role corePort).1 (configure o rules' role corePort).1 := by
  obtain ⟨hflag, hadded⟩ := SameRules.addRules o hrs h
  simp only [Agent.configure, hflag]
  split
  · exact ⟨hflag, hadded⟩
  · exact ⟨rfl, hadded.deleteAll _ _⟩

theorem sameRules_configure (o : Outcome) {role : Str} {corePort : ℤ} (hrs : ∀ r ∈ rulesFor role corePort, ¬ R r)
    (rules : List Rule) : SameRules R (configure o rules role corePort).1 rules := by
  have hadded := sameRules_addRules o hrs rules
  simp only [configure]
  split
  · exact hadded
  · exact (sameRules_deleteAll o.rollbackDeletes hrs _).trans hadded

/-! ### Stopping and starting a tunnel -/

variable {s s' : HawalAgent}

theorem forall_rulesFor {P : Rule → Prop} {role : Str} {corePort : ℤ}
    (h : ∀ p, openedBy role corePort = some p → ∀ r ∈ paqetRules p, P r) : ∀ r ∈ rulesFor role corePort, P r := by
  intro r hr
  obtain ⟨p, hp, hr⟩ := mem_rulesFor.mp hr
  exact h p hp r hr

theorem SameRules.stop (h : SameRules R s.rules s'.rules) {tun : Str}
    (hmetadata : s.metadata.lookup tun = s'.metadata.lookup tun) (d : Deletes) :
    SameRules R (s.stop tun d).rules (s'.stop tun d).rules := by
  simp only [HawalAgent.stop, hmetadata]
  split
  · exact h.deleteAll d _
  · exact h

/-- Stopping a tunnel leaves the rules of other ports. -/
theorem sameRules_stop {tun : Str} (hport : ∀ p, s.port tun = some p → ∀ r ∈ paqetRules p, ¬ R r) (d : Deletes) :
    SameRules R (s.stop tun d).rules s.rules := by
  unfold HawalAgent.port at hport
  simp only [HawalAgent.stop]
  split
  · rename_i role corePort hm
    rw [hm] at hport
    exact sameRules_deleteAll d (forall_rulesFor hport) s.rules
  · exact SameRules.refl _

theorem SameRules.restart (h : SameRules R s.rules s'.rules) {l : Launch}
    (hmetadata : s.metadata.lookup l.tunnelId = s'.metadata.lookup l.tunnelId) (m : Metadata) (o : Outcome) :
    SameRules R (s.restart l m o).rules (s'.restart l m o).rules := by
  rw [restart_rules, restart_rules]
  exact h.stop hmetadata o.stopDeletes

theorem sameRules_restart {l : Launch} (hport : ∀ p, s.port l.tunnelId = some p → ∀ r ∈ paqetRules p, ¬ R r)
    (m : Metadata) (o : Outcome) : SameRules R (s.restart l m o).rules s.rules := by
  rw [restart_rules]
  exact sameRules_stop hport o.stopDeletes

theorem metadata_stop (s : HawalAgent) (tun : Str) (d : Deletes) : (s.stop tun d).metadata.lookup tun = none :=
  AList.lookup_erase tun s.metadata

/-- Stopping the same tunnels, and in the second agent also the tunnel `own`, of which none of the rules are. -/
theorem stopAll_same (d : Str → Deletes) {own : Str} (tuns : List Str) : ∀ {s s' : HawalAgent},
    SameRules R s.rules s'.rules → (∀ tun, tun ≠ own → s.metadata.lookup tun = s'.metadata.lookup tun) →
    (∀ p, s'.port own = some p → ∀ r ∈ paqetRules p, ¬ R r) →
      SameRules R (stopAll d s (tuns.filter fun tun => decide (tun ≠ own))).rules (stopAll d s' tuns).rules := by
  induction tuns with
  | nil => exact fun h _ _ => h
  | cons tun tuns ih =>
    intro s s' h hmetadata hown
    have hport : ∀ p, (s'.stop tun (d tun)).port own = some p → ∀ r ∈ paqetRules p, ¬ R r := by
      intro p hp
      rw [stop_puts s' tun (d tun) own] at hp
      split at hp
      · cases hp
      · exact hown p hp
    by_cases hto : tun = own
    · rw [List.filter_cons_of_neg (by simpa using hto)]
      refine ih (h.trans ?_) (fun k hk => ?_) hport
      · exact (sameRules_stop (hto ▸ hown) (d tun)).symm
      · have hkt : k ≠ tun := fun hkt => hk (hkt.trans hto)
        rw [hmetadata k hk]
        exact (AList.lookup_erase_ne hkt).symm
    · rw [List.filter_cons_of_pos (by simpa using hto)]
      refine ih (h.stop (hmetadata tun hto) (d tun)) (fun k hk => ?_) hport
      show (s.metadata.erase tun).lookup k = (s'.metadata.erase tun).lookup k
      rw [lookup_erase_ite, lookup_erase_ite, hmetadata k hk]

/-! ### The order of the tunnels -/

theorem filter_erase {α : Type} [DecidableEq α] {p : α → Bool} {a : α} (ha : p a = false) (l : List α) :
    (l.erase a).filter p = l.filter p := by
  rw [← List.erase_filter]
  exact List.erase_of_not_mem fun hmem => Bool.false_ne_true (ha.symm.trans (List.mem_filter.mp hmem).2)

/-- The tunnels that the agent has besides these, in its order. -/
def unlisted (ids : List Str) (s : HawalAgent) : List Str := s.processes.keys.filter fun k => decide (k ∉ ids)

section Unlisted

variable {ids : List Str} {tun : Str} (htun : tun ∈ ids)
include htun

theorem keys_erase_listed {α : Type} (m : Dict α) :
    (m.erase tun).keys.filter (fun k => decide (k ∉ ids)) = m.keys.filter fun k => decide (k ∉ ids) := by
  rw [AList.keys_erase]
  exact filter_erase (p := fun k => decide (k ∉ ids)) (decide_eq_false (not_not_intro htun)) m.keys

theorem unlisted_stop (s : HawalAgent) (d : Deletes) : unlisted ids (s.stop tun d) = unlisted ids s := by
  unfold HawalAgent.stop
  cases s.processes.lookup tun with
  | none => rfl
  | some pid => exact keys_erase_listed htun s.processes

theorem unlisted_restart (s : HawalAgent) {l : Launch} (hl : l.tunnelId = tun) (m : Metadata) (o : Outcome) :
    unlisted ids (s.restart l m o) = unlisted ids s := by
  subst hl
  have hstop := unlisted_stop htun s o.stopDeletes
  unfold HawalAgent.restart
  split
  · show (((s.stop l.tunnelId o.stopDeletes).processes.insert l.tunnelId s.launches.length).keys.filter
      fun k => decide (k ∉ ids)) = _
    rw [AList.keys_insert, List.filter_cons_of_neg (by simpa using htun), ← AList.keys_erase]
    exact (keys_erase_listed htun _).trans hstop
  · exact hstop

theorem unlisted_applyFile (s : HawalAgent) {l : Launch} (hl : l.tunnelId = tun) (o : Outcome) :
    unlisted ids (applyFile s l o).1 = unlisted ids s := by
  unfold applyFile
  split
  · rfl
  split
  · exact unlisted_restart htun s hl .empty o
  · rfl

theorem unlisted_applyPaqet (s : HawalAgent) {l : Launch} (hl : l.tunnelId = tun) (role : Str) (corePort : ℤ)
    (o : Outcome) : unlisted ids (applyPaqet s l role corePort o).1 = unlisted ids s := by
  have hstop := unlisted_stop (hl ▸ htun) s o.stopDeletes
  unfold applyPaqet
  split
  · rfl
  split
  · dsimp only
    split
    · exact (unlisted_restart htun _ hl _ o).trans hstop
    · exact hstop
  · exact hstop

theorem unlisted_applyItem (s : HawalAgent) {i : Item} (hi : i.tunnelId = tun) (o : Outcome) :
    unlisted ids (applyItem dumps s i o).1 = unlisted ids s := by
  cases applyItem_pass dumps i o with
  | idle flag heq => rw [heq]
  | stop heq =>
    rw [heq]
    exact unlisted_stop (hi ▸ htun) s o.stopDeletes
  | file l hoffer heq =>
    rw [heq]
    exact unlisted_applyFile htun s ((Item.offer_id dumps hoffer).trans hi) o
  | paqet l yaml role corePort hjob hbinary hoffer heq =>
    rw [heq]
    exact unlisted_applyPaqet htun s ((Item.offer_id dumps hoffer).trans hi) role corePort o
  | gost l role hoffer heq =>
    rw [heq, applyGost]
    split
    · rfl
    · exact unlisted_restart htun s ((Item.offer_id dumps hoffer).trans hi) _ o

end Unlisted

end Hawal.Agent
