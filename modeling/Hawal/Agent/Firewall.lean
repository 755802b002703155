import Hawal.Agent.Items
import Mathlib.Data.Set.Insert

/-!
# Rules of the firewall

The rules that are installed are taken as a set of open ports (`RulesOf`): the functions of the
agent that call `iptables` open and close ports, all rules of a port at once. They should be
those of the ports that tracked Paqet servers use (`Matched`). A process is stopped by closing its
port, whoever else uses it, and a launch that fails leaves the port open.

`Item.Careful` is the condition on one pass of the loop under which neither does harm. It is the
exact one (`applyItem_matched_iff`, and `careful_iff_matched` for a whole call), and the rules
stay matched in every run that meets it (`careful_run_matched`).
-/

namespace Hawal.Agent

open Hawal.Lib Hawal.Lib.Python

/-! ### Open ports -/

theorem paqetRules_ne_nil (p : ℤ) : ∃ r, r ∈ paqetRules p := ⟨_, List.mem_cons_self⟩

/-- Two ports have no rule in common. -/
theorem paqetRules_disjoint {p q : ℤ} {r : Rule} (hp : r ∈ paqetRules p) (hq : r ∈ paqetRules q) : p = q := by
  have hchain : str "PREROUTING" ≠ str "OUTPUT" := by decide
  have htable : str "raw" ≠ str "mangle" := by decide
  simp only [paqetRules, List.mem_cons, List.not_mem_nil, or_false] at hp hq
  rcases hp with rfl | rfl | rfl
  · simp only [Rule.mk.injEq, List.cons.injEq, hchain, htable, decimal_inj, and_true, true_and, false_and, and_false,
      or_false] at hq
    exact hq
  · simp only [Rule.mk.injEq, List.cons.injEq, hchain.symm, htable, decimal_inj, and_true, true_and, false_and,
      and_false,
      or_false, false_or] at hq
    exact hq
  · simp only [Rule.mk.injEq, List.cons.injEq, htable.symm, decimal_inj, and_true, true_and, false_and,
      false_or] at hq
    exact hq

/-- The rules are those of the open ports. -/
def RulesOf (rules : List Rule) (P : Set ℤ) : Prop := ∀ r, r ∈ rules ↔ ∃ p ∈ P, r ∈ paqetRules p

variable {rules : List Rule} {P Q : Set ℤ}

theorem RulesOf.mem_iff (h : RulesOf rules P) {p : ℤ} {r : Rule} (hr : r ∈ paqetRules p) : r ∈ rules ↔ p ∈ P := by
  rw [h r]
  constructor
  · rintro ⟨q, hq, hrq⟩
    exact paqetRules_disjoint hr hrq ▸ hq
  · exact fun hp => ⟨p, hp, hr⟩

/-- The rules tell which ports are open. -/
theorem RulesOf.inj (h : RulesOf rules P) : RulesOf rules Q ↔ P = Q := by
  constructor
  · intro h'
    ext p
    obtain ⟨r, hr⟩ := paqetRules_ne_nil p
    rw [← h.mem_iff hr, ← h'.mem_iff hr]
  · rintro rfl
    exact h

/-- The port that needs rules for such a half. -/
def openedBy (role : Str) (corePort : ℤ) : Option ℤ := if role = str "server" then some corePort else none

theorem mem_rulesFor {role : Str} {corePort : ℤ} {r : Rule} :
    r ∈ rulesFor role corePort ↔ ∃ p, openedBy role corePort = some p ∧ r ∈ paqetRules p := by
  unfold rulesFor openedBy
  split <;> simp

/-- `iptables -D` answers truthfully. -/
def Truthful (d : Deletes) : Prop := ∀ r, d r = none

theorem mem_deleteAll {d : Deletes} (hd : Truthful d) {r : Rule} (rs : List Rule) : ∀ rules : List Rule,
    r ∈ rs.foldl (deleteRule d) rules ↔ r ∈ rules ∧ r ∉ rs := by
  induction rs with
  | nil => simp
  | cons x rs ih =>
    intro rules
    rw [List.foldl_cons, ih, deleteRule, hd x, List.mem_filter, decide_eq_true_eq, List.mem_cons, not_or, and_assoc]

/-- Cleaning up closes the port. -/
theorem rulesOf_cleanup (h : RulesOf rules P) {d : Deletes} (hd : Truthful d) (role : Str) (corePort : ℤ) :
    RulesOf (cleanup d rules role corePort) {p ∈ P | openedBy role corePort ≠ some p} := by
  intro r
  rw [cleanup, mem_deleteAll hd, h r, mem_rulesFor]
  constructor
  · rintro ⟨⟨p, hp, hr⟩, hother⟩
    exact ⟨p, ⟨hp, fun hopened => hother ⟨p, hopened, hr⟩⟩, hr⟩
  · rintro ⟨p, ⟨hp, hne⟩, hr⟩
    refine ⟨⟨p, hp, hr⟩, ?_⟩
    rintro ⟨q, hq, hrq⟩
    exact hne (paqetRules_disjoint hrq hr ▸ hq)

/-- `iptables -C` finds every rule that is there. -/
def Checks (o : Outcome) : Prop := ∀ r, o.checks r = true

theorem addRules_ok {o : Outcome} (ho : Checks o) (rs : List Rule) : ∀ rules : List Rule,
    (addRules o rules rs).2 = true ↔ ∀ r ∈ rs, r ∈ rules ∨ o.adds r = true := by
  induction rs with
  | nil => simp [addRules]
  | cons x rs ih =>
    intro rules
    rw [addRules, ho x, Bool.true_and, List.forall_mem_cons]
    by_cases hx : x ∈ rules
    · rw [if_pos (decide_eq_true hx), ih, and_iff_right (Or.inl hx)]
    · rw [if_neg (by simpa using hx)]
      by_cases hadd : o.adds x = true
      · rw [if_pos hadd, ih, and_iff_right (Or.inr hadd)]
        refine forall₂_congr fun r _ => ?_
        rw [List.mem_cons]
        exact ⟨fun h => h.elim (fun h => h.elim (fun h => .inr (h ▸ hadd)) .inl) .inr, fun h => h.imp_left .inr⟩
      · rw [if_neg hadd]
        exact iff_of_false Bool.false_ne_true fun h => h.1.elim hx hadd

theorem mem_addRules {o : Outcome} {r : Rule} (rs : List Rule) : ∀ rules : List Rule,
    (r ∈ rules → r ∈ (addRules o rules rs).1) ∧ (r ∈ (addRules o rules rs).1 → r ∈ rules ∨ r ∈ rs) ∧
      ((addRules o rules rs).2 = true → r ∈ rs → r ∈ (addRules o rules rs).1) := by
  induction rs with
  | nil => exact fun rules => ⟨id, .inl, fun _ h => absurd h List.not_mem_nil⟩
  | cons x rs ih =>
    intro rules
    rw [addRules]
    split
    · rename_i hthere
      obtain ⟨hold, hnew, hall⟩ := ih rules
      refine ⟨hold, fun h => (hnew h).imp_right (List.mem_cons_of_mem _), fun hok h => ?_⟩
      rcases List.mem_cons.mp h with rfl | h
      · exact hold (of_decide_eq_true (Bool.and_eq_true_iff.mp hthere).2)
      · exact hall hok h
    split
    · obtain ⟨hold, hnew, hall⟩ := ih (x :: rules)
      refine ⟨fun h => hold (List.mem_cons_of_mem _ h), fun h => ?_, fun hok h => ?_⟩
      · rcases hnew h with h | h
        · rcases List.mem_cons.mp h with rfl | h
          · exact .inr List.mem_cons_self
          · exact .inl h
        · exact .inr (List.mem_cons_of_mem _ h)
      · rcases List.mem_cons.mp h with rfl | h
        · exact hold List.mem_cons_self
        · exact hall hok h
    · exact ⟨id, .inl, fun hok _ => absurd hok Bool.false_ne_true⟩

theorem configure_snd (o : Outcome) (rules : List Rule) (role : Str) (corePort : ℤ) :
    (configure o rules role corePort).2 = (addRules o rules (rulesFor role corePort)).2 := by
  simp only [configure]
  split
  · rfl
  · rename_i hfailed
    exact (Bool.not_eq_true _ ▸ hfailed : _ = false).symm

/-- The port is opened unless it was closed and a rule cannot be added. -/
theorem configure_ok (h : RulesOf rules P) {o : Outcome} (ho : Checks o) {role : Str} {corePort : ℤ} :
    (configure o rules role corePort).2 = true ↔
      ∀ p, openedBy role corePort = some p → p ∈ P ∨ ∀ r ∈ paqetRules p, o.adds r = true := by
  rw [configure_snd, addRules_ok ho]
  constructor
  · intro hadds p hp
    by_cases hopen : p ∈ P
    · exact .inl hopen
    · refine .inr fun r hr => (hadds r (mem_rulesFor.mpr ⟨p, hp, hr⟩)).resolve_left ?_
      rwa [h.mem_iff hr]
  · intro hadds r hr
    obtain ⟨p, hp, hr⟩ := mem_rulesFor.mp hr
    exact (hadds p hp).imp (h.mem_iff hr).mpr fun hadd => hadd r hr

/-- Adding rules opens the port. -/
theorem rulesOf_configure (h : RulesOf rules P) {o : Outcome} {role : Str} {corePort : ℤ}
    (hok : (configure o rules role corePort).2 = true) :
    RulesOf (configure o rules role corePort).1 {p | p ∈ P ∨ openedBy role corePort = some p} := by
  have hadded : (addRules o rules (rulesFor role corePort)).2 = true := configure_snd o rules role corePort ▸ hok
  simp only [configure, hadded, if_true]
  intro r
  obtain ⟨hold, hnew, hall⟩ := mem_addRules (o := o) (r := r) (rulesFor role corePort) rules
  constructor
  · intro hr
    rcases hnew hr with hr | hr
    · obtain ⟨p, hp, hr⟩ := (h r).mp hr
      exact ⟨p, .inl hp, hr⟩
    · obtain ⟨p, hp, hr⟩ := mem_rulesFor.mp hr
      exact ⟨p, .inr hp, hr⟩
  · rintro ⟨p, hp | hp, hr⟩
    · exact hold ((h r).mpr ⟨p, hp, hr⟩)
    · exact hall hadded (mem_rulesFor.mpr ⟨p, hp, hr⟩)

/-- When that fails the port is closed. -/
theorem rulesOf_rollback (h : RulesOf rules P) {o : Outcome} (hd : Truthful o.rollbackDeletes) {role : Str}
    {corePort : ℤ}
    (hfailed : (configure o rules role corePort).2 ≠ true) :
    RulesOf (configure o rules role corePort).1 {p ∈ P | openedBy role corePort ≠ some p} := by
  have hadded : (addRules o rules (rulesFor role corePort)).2 ≠ true := configure_snd o rules role corePort ▸ hfailed
  simp only [configure, hadded, Bool.false_eq_true, if_false]
  intro r
  rw [← rulesOf_cleanup h hd role corePort r]
  obtain ⟨hold, hnew, -⟩ := mem_addRules (o := o) (r := r) (rulesFor role corePort) rules
  -- what was added before the failure goes with the rest
  unfold cleanup
  rw [mem_deleteAll hd, mem_deleteAll hd]
  exact and_congr_left fun hother => ⟨fun hr => (hnew hr).resolve_right hother, hold⟩

/-! ### Tracked servers -/

/-- The port that needs rules for the sake of a process. -/
def Metadata.port : Metadata → Option ℤ
  | .paqet role corePort => openedBy role corePort
  | _ => none

namespace HawalAgent

/-- The port of the tunnel, if it is a tracked Paqet server. -/
def port (s : HawalAgent) (tun : Str) : Option ℤ := (s.metadata.lookup tun).bind Metadata.port

/-- The ports of the tracked Paqet servers. -/
def ports (s : HawalAgent) : Set ℤ := {p | ∃ tun, s.port tun = some p}

/-- A tracked Paqet server other than this tunnel uses the port. -/
def Shared (s : HawalAgent) (tun : Str) (p : ℤ) : Prop := ∃ k, k ≠ tun ∧ s.port k = some p

end HawalAgent

variable {s s' s'' : HawalAgent}

theorem mem_keys_of_port {k : Str} {p : ℤ} (h : s.port k = some p) : k ∈ s.metadata.keys := by
  obtain ⟨m, hm, -⟩ := Option.bind_eq_some_iff.mp h
  rw [← AList.mem_keys, ← AList.lookup_isSome, hm]
  rfl

instance (tun : Str) (p : ℤ) : Decidable (s.Shared tun p) :=
  decidable_of_iff (∃ k ∈ s.metadata.keys, k ≠ tun ∧ s.port k = some p)
    ⟨fun ⟨k, _, h⟩ => ⟨k, h⟩, fun ⟨k, h⟩ => ⟨k, mem_keys_of_port h.2, h⟩⟩

/-- The rules that are installed are those of the tracked Paqet servers. -/
def Matched (s : HawalAgent) : Prop := RulesOf s.rules s.ports

theorem matched_start : Matched HawalAgent.start := by
  refine fun r => iff_of_false List.not_mem_nil ?_
  rintro ⟨p, ⟨k, hk⟩, -⟩
  cases hk

/-- The tunnel has that port now, and the others have theirs. -/
def Puts (s s' : HawalAgent) (tun : Str) (new : Option ℤ) : Prop := ∀ k, s'.port k = if k = tun then new else s.port k

theorem ports_eq (s : HawalAgent) (tun : Str) : s.ports = {p | s.port tun = some p ∨ s.Shared tun p} := by
  ext p
  constructor
  · rintro ⟨k, hk⟩
    by_cases hkt : k = tun
    · exact .inl (hkt ▸ hk)
    · exact .inr ⟨k, hkt, hk⟩
  · rintro (hp | ⟨k, -, hk⟩)
    · exact ⟨tun, hp⟩
    · exact ⟨k, hk⟩

/-- What is open when the port of the tunnel is closed. -/
theorem closed_eq (s : HawalAgent) (tun : Str) :
    {p ∈ s.ports | s.port tun ≠ some p} = {p | s.Shared tun p ∧ s.port tun ≠ some p} := by
  rw [ports_eq s tun]
  ext p
  exact and_congr_left fun hne => or_iff_right hne

theorem Puts.ports {tun : Str} {new : Option ℤ} (h : Puts s s' tun new) :
    s'.ports = {p | new = some p ∨ s.Shared tun p} := by
  have hshared : ∀ p, s'.Shared tun p ↔ s.Shared tun p := fun p =>
    exists_congr fun k => and_congr_right fun hk => by rw [h k, if_neg hk]
  rw [ports_eq s' tun, h tun, if_pos rfl]
  simp only [hshared]

theorem Puts.ports_none {tun : Str} (h : Puts s s' tun none) : s'.ports = {p | s.Shared tun p} := by
  rw [h.ports]
  ext p
  exact or_iff_right (Option.some_ne_none p).symm

theorem Puts.again {tun : Str} {new new' : Option ℤ} (h : Puts s s' tun new) (h' : Puts s' s'' tun new') :
    Puts s s'' tun new' := by
  intro k
  rw [h' k, h k]
  split <;> rfl

theorem stop_puts (s : HawalAgent) (tun : Str) (d : Deletes) : Puts s (s.stop tun d) tun none := by
  intro k
  show ((s.metadata.erase tun).lookup k).bind Metadata.port = _
  rw [lookup_erase_ite]
  split <;> rfl

/-- Stopping a tunnel closes its port. -/
theorem rulesOf_stop (h : RulesOf s.rules P) (tun : Str) {d : Deletes} (hd : Truthful d) :
    RulesOf (s.stop tun d).rules {p ∈ P | s.port tun ≠ some p} := by
  unfold HawalAgent.stop HawalAgent.port
  cases hm : s.metadata.lookup tun with
  | none => simpa using h
  | some m =>
    cases m with
    | empty => simpa [Metadata.port] using h
    | gost role => simpa [Metadata.port] using h
    | paqet role corePort => exact rulesOf_cleanup h hd role corePort

theorem restart_rules (s : HawalAgent) (l : Launch) (m : Metadata) (o : Outcome) :
    (s.restart l m o).rules = (s.stop l.tunnelId o.stopDeletes).rules := by
  unfold HawalAgent.restart
  dsimp only
  split <;> rfl

theorem restart_puts (s : HawalAgent) (l : Launch) (m : Metadata) (o : Outcome) :
    Puts s (s.restart l m o) l.tunnelId (if o.launched = true then m.port else none) := by
  have hstop := stop_puts s l.tunnelId o.stopDeletes
  unfold HawalAgent.restart
  split
  · intro k
    show (((s.metadata.erase l.tunnelId).insert l.tunnelId m).lookup k).bind Metadata.port = _
    rw [lookup_insert_ite, lookup_erase_ite]
    split <;> rfl
  · exact hstop

/-! ### A pass of the loop -/

/-- A current process is left alone. -/
theorem of_current {l : Launch} (hcur : s.isCurrent l = true) {X : Prop} : s.isCurrent l = false → X := fun hstale =>
  absurd (hcur.symm.trans hstale) (by decide)

/-- Every `-C` and `-D` answers truthfully. -/
structure Outcome.Truthful (o : Outcome) : Prop where
  checks : Checks o
  stopDeletes : Agent.Truthful o.stopDeletes
  rollbackDeletes : Agent.Truthful o.rollbackDeletes

/-- Stopping a tunnel does no harm when no other server uses its port. -/
theorem stopped_matched_iff (h : Matched s) {tun : Str} {d : Deletes} (hd : Truthful d)
    (hrules : s'.rules = (s.stop tun d).rules) (hputs : Puts s s' tun none) :
    Matched s' ↔ ∀ q ∈ s.port tun, ¬ s.Shared tun q := by
  have hclosed := rulesOf_stop h tun hd
  unfold Matched
  rw [hrules, hclosed.inj, hputs.ports_none, closed_eq s tun]
  constructor
  · intro heq q hq hshared
    have hopen : q ∈ {p | s.Shared tun p} := hshared
    rw [← heq] at hopen
    exact hopen.2 hq
  · intro hsafe
    ext p
    exact and_iff_left_of_imp fun hp hport => hsafe p hport hp

theorem restart_matched_iff (h : Matched s) (l : Launch) {m : Metadata} (hm : m.port = none) {o : Outcome}
    (ho : o.Truthful) :
    Matched (s.restart l m o) ↔ ∀ q ∈ s.port l.tunnelId, ¬ s.Shared l.tunnelId q := by
  have hputs := restart_puts s l m o
  rw [hm, ite_self] at hputs
  exact stopped_matched_iff h ho.stopDeletes (restart_rules s l m o) hputs

theorem applyFile_matched_iff (h : Matched s) (l : Launch) {o : Outcome} (ho : o.Truthful) :
    Matched (applyFile s l o).1 ↔
      (s.isCurrent l = false → o.written = true → ∀ q ∈ s.port l.tunnelId, ¬ s.Shared l.tunnelId q) := by
  unfold applyFile
  split
  · rename_i hcur
    exact iff_of_true h (of_current hcur)
  rename_i hstale
  rw [Bool.not_eq_true] at hstale
  split
  · rename_i hwritten
    rw [restart_matched_iff h l rfl ho]
    exact ⟨fun hsafe _ _ => hsafe, fun hsafe => hsafe hstale hwritten⟩
  · rename_i hwritten
    exact iff_of_true h fun _ hw => absurd hw hwritten

theorem applyGost_matched_iff (h : Matched s) (l : Launch) (role : Str) {o : Outcome} (ho : o.Truthful) :
    Matched (applyGost s l role o).1 ↔
      (s.isCurrent l = false → ∀ q ∈ s.port l.tunnelId, ¬ s.Shared l.tunnelId q) := by
  unfold applyGost
  split
  · rename_i hcur
    exact iff_of_true h (of_current hcur)
  · rename_i hstale
    rw [Bool.not_eq_true] at hstale
    rw [restart_matched_iff h l rfl ho]
    exact ⟨fun hsafe _ => hsafe, fun hsafe => hsafe hstale⟩

section Sets

/-! The port `old` was closed, and rules for `new` were added. The ports of the others are `O`, and
the rules of the ports in `adds` can be added. -/

variable {old new : Option ℤ} {O : Set ℤ} {adds : ℤ → Prop}

theorem launched_eq_iff (hok : ∀ p, new = some p → (p ∈ O ∧ old ≠ some p) ∨ adds p) :
    {p | (p ∈ O ∧ old ≠ some p) ∨ new = some p} = {p | new = some p ∨ p ∈ O} ↔
      ∀ q, old = some q → q ∈ O → new = some q ∧ adds q := by
  constructor
  · intro heq q hq hO
    have hopen : q ∈ {p | new = some p ∨ p ∈ O} := .inr hO
    rw [← heq] at hopen
    have hnew : new = some q := hopen.resolve_left fun h => h.2 hq
    exact ⟨hnew, (hok q hnew).resolve_left fun h => h.2 hq⟩
  · intro hsafe
    ext p
    constructor
    · exact fun hp => hp.elim (fun h => .inr h.1) .inl
    · rintro (hp | hp)
      · exact .inr hp
      · by_cases hold : old = some p
        · exact .inr (hsafe p hold hp).1
        · exact .inl ⟨hp, hold⟩

theorem failed_eq_iff (hok : ∀ p, new = some p → (p ∈ O ∧ old ≠ some p) ∨ adds p) :
    {p | (p ∈ O ∧ old ≠ some p) ∨ new = some p} = O ↔
      (∀ q, old = some q → q ∈ O → new = some q ∧ adds q) ∧ ∀ p, new = some p → p ∈ O ∨ ¬ adds p := by
  constructor
  · intro heq
    refine ⟨fun q hq hO => ?_, fun p hp => .inl (heq ▸ .inr hp)⟩
    rw [← heq] at hO
    have hnew : new = some q := hO.resolve_left fun h => h.2 hq
    exact ⟨hnew, (hok q hnew).resolve_left fun h => h.2 hq⟩
  · rintro ⟨hsafe, hleft⟩
    ext p
    constructor
    · rintro (hp | hp)
      · exact hp.1
      · exact (hleft p hp).elim id fun hno => ((hok p hp).resolve_right hno).1
    · intro hp
      by_cases hold : old = some p
      · exact .inr (hsafe p hold hp).1
      · exact .inl ⟨hp, hold⟩

theorem rolledBack_eq_iff {p : ℤ} (hnew : new = some p) (hclosed : ¬ (p ∈ O ∧ old ≠ some p)) (hno : ¬ adds p) :
    {p | (p ∈ O ∧ old ≠ some p) ∧ new ≠ some p} = O ↔ ∀ q, old = some q → q ∈ O → new = some q ∧ adds q := by
  constructor
  · intro heq q hq hO
    rw [← heq] at hO
    exact absurd hq hO.1.2
  · intro hsafe
    ext q
    constructor
    · exact fun hq => hq.1.1
    · intro hO
      have hold : old ≠ some q := by
        intro hq
        obtain ⟨hq, hadds⟩ := hsafe q hq hO
        rw [hnew] at hq
        cases hq
        exact hno hadds
      refine ⟨⟨hO, hold⟩, fun hq => ?_⟩
      rw [hnew] at hq
      cases hq
      exact hclosed ⟨hO, hold⟩

end Sets

/-- A tunnel without a port takes none with it. -/
theorem stop_rules_of_none {tun : Str} (h : s.metadata.lookup tun = none) (d : Deletes) :
    (s.stop tun d).rules = s.rules := by
  simp only [HawalAgent.stop, h]

/-- The rules of the port can all be added. -/
def Outcome.Adds (o : Outcome) (p : ℤ) : Prop := ∀ r ∈ paqetRules p, o.adds r = true

instance (o : Outcome) (p : ℤ) : Decidable (o.Adds p) := inferInstanceAs (Decidable (∀ r ∈ paqetRules p, o.adds r = true))

/-- Starting a tunnel on the port `new`, in the place of what it was before, does no harm: another
server on its old port gets its rules back, and a launch fails only on a port that is used
anyway or that cannot be opened. -/
def Opens (s : HawalAgent) (tun : Str) (new : Option ℤ) (o : Outcome) : Prop :=
  (∀ q ∈ s.port tun, s.Shared tun q → new = some q ∧ o.Adds q) ∧
    (o.launched = false → ∀ p ∈ new, s.Shared tun p ∨ ¬ o.Adds p)

instance (tun : Str) (new : Option ℤ) (o : Outcome) : Decidable (Opens s tun new o) :=
  inferInstanceAs (Decidable ((∀ q ∈ s.port tun, s.Shared tun q → new = some q ∧ o.Adds q) ∧
    (o.launched = false → ∀ p ∈ new, s.Shared tun p ∨ ¬ o.Adds p)))

section Configured

variable {tun role : Str} {corePort : ℤ} {o : Outcome}

/-- Launching once the rules are added. The tunnel is stopped already. -/
theorem added_matched_iff {l : Launch} (ho : o.Truthful) (hputs : Puts s s' l.tunnelId none)
    (hnone : s'.metadata.lookup l.tunnelId = none)
    (hclosed : RulesOf rules {p | s.Shared l.tunnelId p ∧ s.port l.tunnelId ≠ some p})
    (hrules : s'.rules = (configure o rules role corePort).1) (hadded : (configure o rules role corePort).2 = true) :
    Matched (s'.restart l (.paqet role corePort) o) ↔ Opens s l.tunnelId (openedBy role corePort) o := by
  have hok := (configure_ok hclosed ho.checks).mp hadded
  have hlater := hputs.again (restart_puts s' l (.paqet role corePort) o)
  -- stopping once more finds nothing to clean up
  rw [Matched, restart_rules, stop_rules_of_none hnone, hrules, (rulesOf_configure hclosed hadded).inj]
  unfold Opens
  cases hl : o.launched with
  | true =>
    rw [hl, if_pos rfl] at hlater
    rw [hlater.ports]
    refine (launched_eq_iff (O := {p | s.Shared l.tunnelId p}) hok).trans ?_
    exact (and_iff_left fun hfalse => by cases hfalse).symm
  | false =>
    rw [hl, if_neg Bool.false_ne_true] at hlater
    rw [hlater.ports_none, imp_iff_right rfl]
    exact failed_eq_iff (O := {p | s.Shared l.tunnelId p}) hok

/-- The rules could not be added. -/
theorem notAdded_matched_iff (ho : o.Truthful) (hputs : Puts s s' tun none)
    (hclosed : RulesOf rules {p | s.Shared tun p ∧ s.port tun ≠ some p})
    (hrules : s'.rules = (configure o rules role corePort).1) (hfailed : (configure o rules role corePort).2 ≠ true) :
    Matched s' ↔ Opens s tun (openedBy role corePort) o := by
  rw [Matched, hrules, (rulesOf_rollback hclosed ho.rollbackDeletes hfailed).inj, hputs.ports_none]
  have hrefused : ∃ p, openedBy role corePort = some p ∧ ¬ (s.Shared tun p ∧ s.port tun ≠ some p) ∧ ¬ o.Adds p := by
    by_contra hall
    refine hfailed ((configure_ok hclosed ho.checks).mpr fun p hp => ?_)
    by_contra hneither
    exact hall ⟨p, hp, not_or.mp hneither⟩
  obtain ⟨p, hp, hshut, hno⟩ := hrefused
  refine (rolledBack_eq_iff (O := {p | s.Shared tun p}) hp hshut hno).trans (and_iff_left ?_).symm
  intro _ q hq
  rw [hp] at hq
  cases hq
  exact .inr hno

end Configured

/-- The pass for a Paqet tunnel. -/
theorem applyPaqet_matched_iff (h : Matched s) (l : Launch) (role : Str) (corePort : ℤ) {o : Outcome}
    (ho : o.Truthful) :
    Matched (applyPaqet s l role corePort o).1 ↔ (s.isCurrent l = false →
      Opens s l.tunnelId (if o.written = true then openedBy role corePort else none) o) := by
  have hputs := stop_puts s l.tunnelId o.stopDeletes
  have hclosed := rulesOf_stop h l.tunnelId ho.stopDeletes
  rw [closed_eq] at hclosed
  have hnone : (s.stop l.tunnelId o.stopDeletes).metadata.lookup l.tunnelId = none := AList.lookup_erase _ _
  unfold applyPaqet
  split
  · rename_i hcur
    exact iff_of_true h (of_current hcur)
  rename_i hstale
  rw [Bool.not_eq_true] at hstale
  rw [imp_iff_right hstale]
  split
  · dsimp only
    split
    · rename_i hadded
      exact added_matched_iff ho hputs hnone hclosed rfl hadded
    · rename_i hfailed
      exact notAdded_matched_iff ho hputs hclosed rfl hfailed
  · refine (stopped_matched_iff h ho.stopDeletes rfl hputs).trans
      ⟨fun hsafe => ⟨fun q hq hshared => ?_, fun _ p hp => ?_⟩,
      fun hopens q hq hshared => ?_⟩
    · exact absurd hshared (hsafe q hq)
    · cases hp
    · cases (hopens.1 q hq hshared).1

variable (dumps : List Str → Str)

/-- The item does not describe the process that runs. -/
def Item.stale (s : HawalAgent) (i : Item) (o : Outcome) : Bool := (i.offer dumps o).any fun l => !s.isCurrent l

/-- The pass stops the process of the tunnel. -/
def Item.stops (s : HawalAgent) (i : Item) (o : Outcome) : Bool :=
  match i.job with
  | .hawal _ => o.binary && i.stale dumps s o && o.written
  | .backhaul _ => i.stale dumps s o && o.written
  | .paqet _ _ _ => o.binary && (o.network.isNone || i.stale dumps s o)
  | .gost command _ => o.binary && decide (command ≠ some []) && i.stale dumps s o
  | .other => false

/-- The port that the pass then adds rules for. -/
def Item.opens (i : Item) (o : Outcome) : Option ℤ :=
  match i.job with
  | .paqet _ role corePort => if o.network.isSome && o.written then openedBy role corePort else none
  | _ => none

/-- The pass does no harm: when it stops the process of the tunnel, no other tracked server uses
its port, unless the rules are added again; and no launch fails after rules were added for a port
that no other tracked server uses. -/
def Item.Careful (s : HawalAgent) (i : Item) (o : Outcome) : Prop :=
  i.stops dumps s o = true → Opens s i.tunnelId (i.opens o) o

instance (s : HawalAgent) (i : Item) (o : Outcome) : Decidable (i.Careful dumps s o) :=
  inferInstanceAs (Decidable (i.stops dumps s o = true → Opens s i.tunnelId (i.opens o) o))

theorem opens_none {tun : Str} {o : Outcome} : Opens s tun none o ↔ ∀ q ∈ s.port tun, ¬ s.Shared tun q := by
  constructor
  · intro hopens q hq hshared
    cases (hopens.1 q hq hshared).1
  · exact fun hsafe => ⟨fun q hq hshared => absurd hshared (hsafe q hq), fun _ p hp => by cases hp⟩

/-- **One pass** leaves the rules matched exactly when it is careful. -/
theorem applyItem_matched_iff (h : Matched s) (i : Item) {o : Outcome} (ho : o.Truthful) :
    Matched (applyItem dumps s i o).1 ↔ i.Careful dumps s o := by
  unfold applyItem Item.Careful Item.stops Item.opens Item.stale Item.offer
  cases hj : i.job with
  | hawal config =>
    dsimp only
    cases o.binary with
    | false => exact iff_of_true h fun hstops => by cases hstops
    | true =>
      cases config with
      | none => exact iff_of_true h fun hstops => by cases hstops
      | some content =>
        refine (applyFile_matched_iff h _ ho).trans ?_
        simp [opens_none]
  | backhaul toml =>
    cases toml with
    | none => exact iff_of_true h fun hstops => by cases hstops
    | some content =>
      refine (applyFile_matched_iff h _ ho).trans ?_
      simp [opens_none]
  | paqet yaml role corePort =>
    dsimp only
    cases o.binary with
    | false => exact iff_of_true h fun hstops => by cases hstops
    | true =>
      cases o.network with
      | none =>
        refine (stopped_matched_iff h ho.stopDeletes rfl (stop_puts s i.tunnelId o.stopDeletes)).trans ?_
        simp [opens_none]
      | some net =>
        cases yaml with
        | none => exact iff_of_true h fun hstops => by cases hstops
        | some template =>
          refine (applyPaqet_matched_iff h _ role corePort ho).trans ?_
          simp
  | gost command role =>
    dsimp only
    cases o.binary with
    | false => exact iff_of_true h fun hstops => by cases hstops
    | true =>
      cases command with
      | none => exact iff_of_true h fun hstops => by cases hstops
      | some args =>
        cases args with
        | nil => exact iff_of_true h fun hstops => by cases hstops
        | cons arg args =>
          refine (applyGost_matched_iff h _ role ho).trans ?_
          simp [opens_none]
  | other => exact iff_of_true h fun hstops => by cases hstops

/-! ### Removing tunnels -/

theorem stopAll_port (d : Str → Deletes) (tuns : List Str) (k : Str) : ∀ s : HawalAgent,
    (stopAll d s tuns).port k = if k ∈ tuns then none else s.port k := by
  induction tuns with
  | nil => exact fun s => (if_neg List.not_mem_nil).symm
  | cons tun tuns ih =>
    intro s
    refine (ih (s.stop tun (d tun))).trans ?_
    rw [stop_puts s tun (d tun) k]
    by_cases hk : k ∈ tuns
    · rw [if_pos hk, if_pos (List.mem_cons_of_mem _ hk)]
    · simp only [hk, if_false, List.mem_cons, or_false]

theorem rulesOf_stopAll {d : Str → Deletes} (hd : ∀ tun, Truthful (d tun)) (tuns : List Str) :
    ∀ {s : HawalAgent} {P : Set ℤ},
    RulesOf s.rules P → RulesOf (stopAll d s tuns).rules {p ∈ P | ∀ k ∈ tuns, s.port k ≠ some p} := by
  induction tuns with
  | nil =>
    intro s P h
    show RulesOf s.rules _
    simpa using h
  | cons tun tuns ih =>
    intro s P h
    have hrest := ih (rulesOf_stop h tun (hd tun))
    have hsets : {p ∈ {p ∈ P | s.port tun ≠ some p} | ∀ k ∈ tuns, (s.stop tun (d tun)).port k ≠ some p} =
        {p ∈ P | ∀ k ∈ tun :: tuns, s.port k ≠ some p} := by
      ext p
      refine (and_assoc).trans (and_congr_right fun _ => ?_)
      rw [List.forall_mem_cons]
      refine and_congr_right fun hne => forall₂_congr fun k _ => ?_
      rw [stop_puts s tun (d tun) k]
      split
      · rename_i hk
        exact iff_of_true (Option.some_ne_none p).symm (hk ▸ hne)
      · rfl
    exact hsets ▸ hrest

/-- Stopping these tunnels does no harm: none of them shares its port with a server that stays. -/
def CarefulRemoval (s : HawalAgent) (tuns : List Str) : Prop :=
  ∀ tun ∈ tuns, ∀ p ∈ s.port tun, ∀ k ∈ s.metadata.keys, k ∉ tuns → s.port k ≠ some p

instance (tuns : List Str) : Decidable (CarefulRemoval s tuns) :=
  inferInstanceAs (Decidable (∀ tun ∈ tuns, ∀ p ∈ s.port tun, ∀ k ∈ s.metadata.keys, k ∉ tuns → s.port k ≠ some p))

theorem stopAll_matched_iff (h : Matched s) {d : Str → Deletes} (hd : ∀ tun, Truthful (d tun)) (tuns : List Str) :
    Matched (stopAll d s tuns) ↔ CarefulRemoval s tuns := by
  have hclosed := rulesOf_stopAll hd tuns h
  have hports : (stopAll d s tuns).ports = {p | ∃ k, k ∉ tuns ∧ s.port k = some p} := by
    ext p
    refine exists_congr fun k => ?_
    rw [stopAll_port]
    split
    · rename_i hk
      exact iff_of_false (Option.some_ne_none p).symm fun hstays => hstays.1 hk
    · rename_i hk
      exact (and_iff_right hk).symm
  rw [Matched, hclosed.inj, hports]
  constructor
  · intro heq tun htun p hp k _ hk hport
    have hopen : p ∈ {p | ∃ k, k ∉ tuns ∧ s.port k = some p} := ⟨k, hk, hport⟩
    rw [← heq] at hopen
    exact hopen.2 tun htun hp
  · intro hsafe
    ext p
    constructor
    · rintro ⟨⟨k, hk⟩, hother⟩
      exact ⟨k, fun htun => hother k htun hk, hk⟩
    · rintro ⟨k, hk, hport⟩
      exact ⟨⟨k, hport⟩, fun tun htun hp => hsafe tun htun p hp k (mem_keys_of_port hport) hk hport⟩

/-! ### Calls and runs -/

/-- Every pass of the loop is careful, until an exception. -/
def CarefulItems (s : HawalAgent) : List (Option Item × Outcome) → Prop
  | [] => True
  | (none, _) :: _ => True
  | (some i, o) :: rest =>
    i.Careful dumps s o ∧ ((applyItem dumps s i o).2 = true → CarefulItems (applyItem dumps s i o).1 rest)

instance decidableCarefulItems : (items : List (Option Item × Outcome)) → (s : HawalAgent) →
    Decidable (CarefulItems dumps s items)
  | [], _ => isTrue trivial
  | (none, _) :: _, _ => isTrue trivial
  | (some i, o) :: rest, s =>
    have : Decidable (CarefulItems dumps (applyItem dumps s i o).1 rest) := decidableCarefulItems rest _
    inferInstanceAs (Decidable (i.Careful dumps s o ∧
      ((applyItem dumps s i o).2 = true → CarefulItems dumps (applyItem dumps s i o).1 rest)))

/-- The loop is careful exactly when the rules are matched after each of its passes. -/
theorem carefulItems_iff {items : List (Option Item × Outcome)} : ∀ {s : HawalAgent}, Matched s →
    (∀ io ∈ items, io.2.Truthful) →
      (CarefulItems dumps s items ↔ ∀ pre, pre <+: items → Matched (applyItems dumps s pre).1) := by
  induction items with
  | nil =>
    intro s h _
    refine iff_of_true trivial fun pre hpre => ?_
    rw [List.prefix_nil.mp hpre]
    exact h
  | cons io items ih =>
    intro s h htruthful
    obtain ⟨i, o⟩ := io
    cases i with
    | none =>
      refine iff_of_true trivial fun pre hpre => ?_
      rcases List.prefix_cons_iff.mp hpre with rfl | ⟨pre, rfl, -⟩
      · exact h
      · exact h
    | some i =>
      have hpass := applyItem_matched_iff dumps h i (htruthful (some i, o) List.mem_cons_self)
      have hrest : ∀ io ∈ items, io.2.Truthful := fun io hio => htruthful io (List.mem_cons_of_mem _ hio)
      constructor
      · rintro ⟨hcareful, hlater⟩ pre hpre
        rcases List.prefix_cons_iff.mp hpre with rfl | ⟨pre, rfl, hpre'⟩
        · exact h
        simp only [applyItems]
        split
        · rename_i hflag
          exact (ih (hpass.mpr hcareful) hrest).mp (hlater hflag) pre hpre'
        · exact hpass.mpr hcareful
      · intro hall
        have hfirst : Matched (applyItem dumps s i o).1 := by
          have hone := hall [(some i, o)] (List.cons_prefix_cons.mpr ⟨rfl, List.nil_prefix⟩)
          simp only [applyItems] at hone
          split at hone <;> exact hone
        refine ⟨hpass.mp hfirst, fun hflag => (ih hfirst hrest).mpr fun pre hpre => ?_⟩
        have hmore := hall ((some i, o) :: pre) (List.cons_prefix_cons.mpr ⟨rfl, hpre⟩)
        simp only [applyItems, hflag, if_true] at hmore
        exact hmore

/-- Every `-C` and `-D` of the event answers truthfully. -/
def Event.Truthful : Event → Prop
  | .apply items d => (∀ io ∈ items, io.2.Truthful) ∧ ∀ tun, Agent.Truthful (d tun)
  | .died _ => True
  | .shutdown d => ∀ tun, Agent.Truthful (d tun)

@[simp] theorem Event.truthful_died (pid : ℕ) : (Event.died pid).Truthful := trivial

/-- The event does no harm: in a call every pass of the loop is careful, and so is the removal of
the tunnels that are no longer in the list. -/
def Event.Careful (s : HawalAgent) : Event → Prop
  | .apply items _ => CarefulItems dumps s items ∧ ((applyItems dumps s items).2 = true →
      CarefulRemoval (applyItems dumps s items).1
        ((applyItems dumps s items).1.processes.keys.filter fun tun => decide (tun ∉ activeIds items)))
  | .died _ => True
  | .shutdown _ => True

instance (s : HawalAgent) : (e : Event) → Decidable (e.Careful dumps s)
  | .apply items _ => inferInstanceAs (Decidable (CarefulItems dumps s items ∧ ((applyItems dumps s items).2 = true →
      CarefulRemoval (applyItems dumps s items).1
        ((applyItems dumps s items).1.processes.keys.filter fun tun => decide (tun ∉ activeIds items)))))
  | .died _ => isTrue trivial
  | .shutdown _ => isTrue trivial

/-- The rules are matched after the event, and in a call after every pass of the loop. -/
def Event.Keeps (s : HawalAgent) : Event → Prop
  | .apply items d => (∀ pre, pre <+: items → Matched (applyItems dumps s pre).1) ∧ Matched (applyConfigs dumps s items d)
  | .died pid => Matched (s.kill pid)
  | .shutdown d => Matched (stopAll d s s.processes.keys)

/-- At the end no server is left. -/
theorem shutdown_matched (ht : Tidy s) (h : Matched s) {d : Str → Deletes} (hd : ∀ tun, Truthful (d tun)) :
    Matched (stopAll d s s.processes.keys) := by
  refine (stopAll_matched_iff h hd _).mpr fun tun _ p _ k hk hstays => absurd ?_ hstays
  rw [← AList.mem_keys, ← AList.lookup_isSome, Option.isSome_iff_ne_none, ne_eq, ht.metadata] at hk
  rwa [← AList.mem_keys, ← AList.lookup_isSome, Option.isSome_iff_ne_none]

/-- **The condition on one event is exact.** -/
theorem careful_iff_matched (ht : Tidy s) (h : Matched s) {e : Event} (he : e.Truthful) :
    e.Careful dumps s ↔ e.Keeps dumps s := by
  cases e with
  | died pid => exact iff_of_true trivial h
  | shutdown d => exact iff_of_true trivial (shutdown_matched ht h he)
  | apply items d =>
    obtain ⟨hitems, hd⟩ := he
    simp only [Event.Careful, Event.Keeps, carefulItems_iff dumps h hitems]
    refine and_congr_right fun hall => ?_
    have hloop : Matched (applyItems dumps s items).1 := hall items List.prefix_rfl
    simp only [applyConfigs]
    split
    · rename_i hflag
      rw [stopAll_matched_iff hloop hd, imp_iff_right hflag]
    · rename_i hflag
      exact iff_of_true (fun hflag' => absurd hflag' hflag) hloop

theorem Event.Keeps.matched {e : Event} (hk : e.Keeps dumps s) (hstep : agentStep dumps s e = some s') :
    Matched s' := by
  cases e with
  | apply items d =>
    cases hstep
    exact hk.2
  | died pid =>
    cases hstep
    exact hk
  | shutdown d =>
    cases hstep
    exact hk

/-- **Rules of the firewall**: in every run whose events are careful, the rules that are installed
are at the end of each event those of the tracked Paqet servers. -/
theorem careful_run_matched {events : List Event} (htruthful : ∀ e ∈ events, e.Truthful)
    (hcareful : Along (agentStep dumps) (Event.Careful dumps) HawalAgent.start events) {pre : List Event}
    {s : HawalAgent}
    (hpre : pre <+: events) (hrun : exec (agentStep dumps) HawalAgent.start pre = some s) : Matched s := by
  obtain ⟨post, rfl⟩ := hpre
  have hpre : ∀ e ∈ pre, e.Truthful := fun e he => htruthful e (List.mem_append_left _ he)
  have hrel := exec_along (R := fun _ s s' => Tidy s → Matched s → Tidy s' ∧ Matched s')
    (fun s ht h => ⟨ht, h⟩) (fun a as s t u hfirst hrest ht h => hrest (hfirst ht h).1 (hfirst ht h).2)
    (fun e he s s' hstep hcareful ht h =>
      ⟨(agentStep_tidy dumps hstep ht).1,
        ((careful_iff_matched dumps ht h (hpre e he)).mp hcareful).matched dumps hstep⟩)
    hcareful.append_left hrun
  exact (hrel tidy_start matched_start).2

/-! ### Examples -/

/-- A Paqet server. -/
def serverItem (tun : String) (corePort : ℤ) : Item :=
  ⟨str tun, 0, .paqet (some (str "role: server")) (str "server") corePort⟩

theorem launching_truthful (launched : Bool) :
    (launching launched).Truthful := ⟨fun _ => rfl, fun _ => rfl, fun _ => rfl⟩

/-- A call for these servers. -/
def serve (servers : List (String × ℤ × Bool)) : Event :=
  .apply (servers.map fun x => (some (serverItem x.1 x.2.1), launching x.2.2)) fun _ _ => none

theorem serve_truthful (servers : List (String × ℤ × Bool)) : (serve servers).Truthful := by
  refine ⟨fun io hio => ?_, fun _ _ => rfl⟩
  obtain ⟨x, -, rfl⟩ := List.mem_map.mp hio
  exact launching_truthful x.2.2

/-- Two servers on ports of their own; one dies, the other is removed. -/
def carefulRun : List Event :=
  [serve [("tun_00000001", 9999, true), ("tun_00000002", 8888, true)], .died 0, serve [("tun_00000001", 9999, true)]]

theorem carefulRun_matched : ∃ s, exec (agentStep plainDumps) HawalAgent.start carefulRun = some s ∧
    s.port (str "tun_00000001") = some 9999 ∧ Matched s := by
  have htruthful : ∀ e ∈ carefulRun, e.Truthful := by simp [carefulRun, serve_truthful]
  obtain ⟨s, hrun, hport⟩ : ∃ s, exec (agentStep plainDumps) HawalAgent.start carefulRun = some s ∧
      s.port (str "tun_00000001") = some 9999 := exists_of_any (by decide +kernel)
  exact ⟨s, hrun, hport, careful_run_matched plainDumps htruthful (by decide +kernel) List.prefix_rfl hrun⟩

/-- A tunnel was deleted and another one was made on its port since the last call. -/
def recreatedRun : List Event := [serve [("tun_00000001", 9999, true)], serve [("tun_00000002", 9999, true)]]

/-- The launch fails. -/
def failedRun : List Event := [serve [("tun_00000001", 9999, false)]]

/-- Removing the old tunnel takes the rules from the new one, and those of a server that was not
launched stay. -/
theorem recreatedRun_failedRun_unmatched :
    ((∀ e ∈ recreatedRun, e.Truthful) ∧
      ∃ s, exec (agentStep plainDumps) HawalAgent.start recreatedRun = some s ∧ ¬ Matched s) ∧
    (∀ e ∈ failedRun, e.Truthful) ∧
      ∃ s, exec (agentStep plainDumps) HawalAgent.start failedRun = some s ∧ ¬ Matched s := by
  refine ⟨⟨?_, ?_⟩, ?_, ?_⟩
  · simp [recreatedRun, serve_truthful]
  · obtain ⟨s, hrun, hport, hrules⟩ : ∃ s, exec (agentStep plainDumps) HawalAgent.start recreatedRun = some s ∧
        s.port (str "tun_00000002") = some 9999 ∧ s.rules = [] := exists_of_any (by decide +kernel)
    refine ⟨s, hrun, fun hmatched => ?_⟩
    obtain ⟨r, hr⟩ := paqetRules_ne_nil 9999
    have hthere : r ∈ s.rules := (hmatched.mem_iff hr).mpr ⟨_, hport⟩
    rw [hrules] at hthere
    cases hthere
  · simp [failedRun, serve_truthful]
  · obtain ⟨s, hrun, hkeys, hrules⟩ : ∃ s, exec (agentStep plainDumps) HawalAgent.start failedRun = some s ∧
        s.metadata.keys = [] ∧ s.rules ≠ [] := exists_of_any (by decide +kernel)
    refine ⟨s, hrun, fun hmatched => ?_⟩
    obtain ⟨r, hr⟩ := List.exists_mem_of_ne_nil _ hrules
    obtain ⟨p, ⟨k, hk⟩, -⟩ := (hmatched r).mp hr
    have hkey := mem_keys_of_port hk
    rw [hkeys] at hkey
    cases hkey

end Hawal.Agent
