import Hawal.Lib.Run
import Hawal.Panel.PortRules

/-!
# Which target the client dials

The server keeps of a rule only its listen port: `startForwardedListeners` passes it to
`forwardPortLoop`, `pipeUserConn` opens a stream with it, and `handleIncomingStream` on the client
looks it up in the map that `NewClient` has made of the same rules. Here the two ends are one system:
executions of the loop over the rules, in which `net.Listen` may succeed or fail each time, listeners,
the streams of user connections, and what the client dials for them.

* `denoted` — the target that a rule denotes.
* `Settled` — the rules for which the client's map has that target.
* `settled_iff_never_misdials` — the runs that only dial what the rules denote.

What was read of a stream after it was dialled is not followed. That a stream's target port is what
`OpenStream` was given is `newStream` of the session.
-/

namespace Hawal.Forward.DialTargets

open Hawal.Lib Hawal.Lib.Python Hawal.Panel Hawal.Panel.PortRules

/-! ### The two ends -/

/-- A listener or a stream: the rule that the listener was opened for, and the port that goes with it. -/
structure Forwarded where
  rule : Str
  /-- `port` in `forwardPortLoop`, and `TargetPort` of the stream. -/
  port : Str
  deriving DecidableEq, Repr

/-- What the client dials for a connection. -/
structure Dial where
  /-- The rule of the listener that accepted the connection. -/
  rule : Str
  localTarget : Str
  deriving DecidableEq, Repr

/-- The server and the client. -/
structure Ends where
  /-- The executions of `startForwardedListeners`: the rules that each has not come to. -/
  loops : List (List Str) := []
  /-- The listeners that were opened. -/
  listeners : List Forwarded := []
  /-- The streams that were opened and not handled. -/
  streams : List Forwarded := []
  /-- What was dialled. -/
  dials : List Dial := []
  deriving DecidableEq, Repr

namespace Ends

/-- The steps. -/
inductive Event where
  /-- `startForwardedListeners` is called. -/
  | start
  /-- The loop `n` comes to a rule, and `net.Listen` returns a listener or an error. -/
  | listen (n : ℕ) (ok : Bool)
  /-- The listener `l` accepts a user connection, and a stream is opened for it. -/
  | accept (l : ℕ)
  /-- The client handles the stream `i`. -/
  | handle (i : ℕ)
  deriving DecidableEq, Repr

/-- The loop `n` goes on with these rules. -/
def goto (e : Ends) (n : ℕ) (rules : List Str) : Ends := { e with loops := e.loops.set n rules }

/-- **The step function**, for the rules in the configuration of both ends. -/
def step (rules : List Str) (e : Ends) : Event → Option Ends
  | .start => some { e with loops := e.loops ++ [rules] }
  | .listen n ok =>
    match e.loops[n]? with
    | some (portRule :: rest) =>
      some { e.goto n rest with
        listeners := if ok then e.listeners ++ [⟨portRule, PortRules.listenPort portRule⟩] else e.listeners }
    | _ => none
  | .accept l =>
    match e.listeners[l]? with
    | some f => some { e with streams := e.streams ++ [⟨f.rule, f.port⟩] }
    | none => none
  | .handle i =>
    match e.streams[i]? with
    | some f =>
      some { e with streams := e.streams.eraseIdx i, dials := e.dials ++ [⟨f.rule, localTarget rules f.port⟩] }
    | none => none

end Ends

/-! ### What the rules denote -/

/-- The target of a rule: what comes after its first `=`, or the port itself on the client's machine. -/
def denoted (rule : Str) : Str := (after '='.toNat rule).getD (withLocalhost rule)

/-- `NewClient` enters the rule: it has one `=` at most. -/
def Entered (rule : Str) : Prop := rule.count '='.toNat ≤ 1

instance : DecidablePred Entered := fun _ => inferInstanceAs (Decidable (_ ≤ _))

/-- The last rule for a listen port among those that are entered. -/
def lastEntered (rules : List Str) (port : Str) : Option Str :=
  let entered := rules.filter fun rule => decide (Entered rule)
  (entered.filter fun rule => decide (PortRules.listenPort rule = port)).getLast?

/-- **The rules that are dialled**: `rule` is entered, and so is no later rule for its port with
another target. -/
def Settled (rules : List Str) (rule : Str) : Prop :=
  Entered rule ∧ ∀ r ∈ lastEntered rules (PortRules.listenPort rule), denoted r = denoted rule

instance (rules : List Str) (rule : Str) : Decidable (Settled rules rule) :=
  inferInstanceAs (Decidable (_ ∧ ∀ r ∈ _, _))

/-- Something was dialled that is not the target of the listener's rule. -/
def Ends.Misdialled (e : Ends) : Prop := ∃ d ∈ e.dials, d.localTarget ≠ denoted d.rule

instance : DecidablePred Ends.Misdialled := fun _ => inferInstanceAs (Decidable (∃ d ∈ _, _))

/-- A stream is handled only when its listener's rule is settled. -/
def Ends.Careful (rules : List Str) (e : Ends) : Ends.Event → Prop
  | .handle i => ∀ f ∈ e.streams[i]?, Settled rules f.rule
  | _ => True

instance (rules : List Str) (e : Ends) (a : Ends.Event) : Decidable (e.Careful rules a) := by
  cases a <;> unfold Ends.Careful <;> infer_instance

/-! ### The parts of a rule -/

/-- A rule is its port, or its port and its target. -/
theorem eq_parts (rule : Str) :
    after '='.toNat rule = none ∧ PortRules.listenPort rule = rule ∧ '='.toNat ∉ rule ∨
      ∃ target, after '='.toNat rule = some target ∧ rule = PortRules.listenPort rule ++ '='.toNat :: target := by
  by_cases h : '='.toNat ∈ rule
  · obtain ⟨port, target, rfl, hport⟩ := List.eq_append_cons_of_mem h
    refine .inr ⟨target, after_append hport target, ?_⟩
    rw [PortRules.listenPort, before_append hport]
  · exact .inl ⟨after_of_notMem h, before_of_notMem h, h⟩

theorem eq_notMem_listenPort (rule : Str) : '='.toNat ∉ PortRules.listenPort rule := fun h =>
  absurd (List.mem_takeWhile_imp h) (by simp)

/-- What `NewClient` enters for a rule, if it does. -/
theorem portMapEntry_eq (rule : Str) :
    portMapEntry rule = if Entered rule then some (PortRules.listenPort rule, denoted rule) else none := by
  rcases eq_parts rule with ⟨hafter, hport, hmark⟩ | ⟨target, hafter, hrule⟩
  · have hentered : Entered rule := by
      unfold Entered
      rw [List.count_eq_zero_of_not_mem hmark]
      exact Nat.zero_le 1
    rw [portMapEntry, if_pos hentered, denoted, hafter, hport]
    rfl
  · have hcount : rule.count '='.toNat = target.count '='.toNat + 1 := by
      conv_lhs => rw [hrule]
      rw [List.count_append, List.count_eq_zero_of_not_mem (eq_notMem_listenPort rule), List.count_cons_self,
        Nat.zero_add]
    have hentered : Entered rule ↔ '='.toNat ∉ target := by
      unfold Entered
      rw [hcount, ← List.count_eq_zero]
      omega
    rw [portMapEntry, denoted, hafter]
    dsimp only
    by_cases hmem : '='.toNat ∈ target
    · rw [if_pos hmem, if_neg fun h => hentered.mp h hmem]
    · rw [if_neg hmem, if_pos (hentered.mpr hmem)]
      rfl

/-- The entries of the map. -/
theorem filterMap_portMapEntry (rules : List Str) :
    rules.filterMap portMapEntry =
      (rules.filter fun rule => decide (Entered rule)).map fun rule => (PortRules.listenPort rule, denoted rule) := by
  induction rules with
  | nil => rfl
  | cons rule rules ih =>
    rw [List.filterMap_cons, List.filter_cons, ih, portMapEntry_eq]
    by_cases h : Entered rule
    · rw [if_pos h, if_pos (decide_eq_true h), List.map_cons]
    · rw [if_neg h, if_neg (by simpa using h)]

/-- **The last rule for a port counts.** -/
theorem localTarget_eq (rules : List Str) (port : Str) :
    localTarget rules port = ((lastEntered rules port).map denoted).getD (withLocalhost port) := by
  rw [localTarget, portMap, Dict.get_update_getLast, filterMap_portMapEntry, List.filter_map, List.getLast?_map]
  show ((((lastEntered rules port).map fun rule => (PortRules.listenPort rule, denoted rule)).map Prod.snd).or
    none).getD _ = _
  rw [Option.map_map, Option.or_none]
  rfl

theorem mem_of_lastEntered {rules : List Str} {port r : Str} (h : r ∈ lastEntered rules port) :
    r ∈ rules ∧ Entered r ∧ PortRules.listenPort r = port := by
  have hmem := List.mem_filter.mp (List.mem_of_getLast? h)
  have hrule := List.mem_filter.mp hmem.1
  exact ⟨hrule.1, of_decide_eq_true hrule.2, of_decide_eq_true hmem.2⟩

theorem exists_lastEntered {rules : List Str} {rule : Str} (h : rule ∈ rules) (hentered : Entered rule) :
    ∃ r, lastEntered rules (PortRules.listenPort rule) = some r := by
  have hmem : rule ∈ (rules.filter fun rule => decide (Entered rule)).filter
      fun r => decide (PortRules.listenPort r = PortRules.listenPort rule) := by
    rw [List.mem_filter, List.mem_filter]
    exact ⟨⟨h, decide_eq_true hentered⟩, decide_eq_true rfl⟩
  exact ⟨_, List.getLast?_eq_some_getLast (List.ne_nil_of_mem hmem)⟩

/-- The client never dials a target with `=`. -/
theorem eq_notMem_localTarget (rules : List Str) {port : Str} (hport : '='.toNat ∉ port) :
    '='.toNat ∉ localTarget rules port := by
  have hlocalhost : '='.toNat ∉ withLocalhost port := fun h =>
    (List.mem_append.mp h).elim (by decide) hport
  rw [localTarget_eq]
  cases hlast : lastEntered rules port with
  | none => exact hlocalhost
  | some r =>
    obtain ⟨-, hentered, hlisten⟩ := mem_of_lastEntered hlast
    show '='.toNat ∉ denoted r
    rcases eq_parts r with ⟨hafter, hself, -⟩ | ⟨target, hafter, hrule⟩
    · rw [denoted, hafter]
      show '='.toNat ∉ withLocalhost r
      rwa [← hself, hlisten]
    · rw [denoted, hafter]
      show '='.toNat ∉ target
      intro hmem
      have hcount : 0 < target.count '='.toNat := List.count_pos_iff.mpr hmem
      unfold Entered at hentered
      rw [hrule, List.count_append, List.count_cons_self] at hentered
      omega

/-- A rule that is not entered denotes a target with `=`. -/
theorem eq_mem_denoted {rule : Str} (h : ¬ Entered rule) : '='.toNat ∈ denoted rule := by
  rcases eq_parts rule with ⟨-, -, hmark⟩ | ⟨target, hafter, hrule⟩
  · refine absurd ?_ h
    unfold Entered
    rw [List.count_eq_zero_of_not_mem hmark]
    exact Nat.zero_le 1
  · rw [denoted, hafter]
    show '='.toNat ∈ target
    by_contra hmark
    refine h ?_
    unfold Entered
    rw [hrule, List.count_append, List.count_eq_zero_of_not_mem (eq_notMem_listenPort rule), List.count_cons_self,
      List.count_eq_zero_of_not_mem hmark]

/-- **When the client has the target of a rule.** -/
theorem localTarget_eq_denoted_iff {rules : List Str} {rule : Str} (h : rule ∈ rules) :
    localTarget rules (PortRules.listenPort rule) = denoted rule ↔ Settled rules rule := by
  by_cases hentered : Entered rule
  · obtain ⟨r, hr⟩ := exists_lastEntered h hentered
    have htarget : localTarget rules (PortRules.listenPort rule) = denoted r := by
      rw [localTarget_eq, hr]
      rfl
    rw [htarget, Settled, hr]
    exact ⟨fun heq => ⟨hentered, fun r' hr' => Option.some.inj hr' ▸ heq⟩, fun hs => hs.2 r rfl⟩
  · refine iff_of_false (fun heq => ?_) fun hs => hentered hs.1
    exact eq_notMem_localTarget rules (eq_notMem_listenPort rule) (heq ▸ eq_mem_denoted hentered)

/-! ### Runs -/

namespace Ends

variable {rules : List Str}

/-- What holds of every listener and every stream. -/
def FromRules (rules : List Str) (f : Forwarded) : Prop := f.rule ∈ rules ∧ f.port = PortRules.listenPort f.rule

/-- **The invariant**: the loops run over the rules, and a listener or a stream has the port of its rule. -/
structure Kept (rules : List Str) (e : Ends) : Prop where
  loops : ∀ l ∈ e.loops, ∀ rule ∈ l, rule ∈ rules
  listeners : ∀ f ∈ e.listeners, FromRules rules f
  streams : ∀ f ∈ e.streams, FromRules rules f

theorem kept_initial : Kept rules {} where
  loops := by simp
  listeners := by simp
  streams := by simp

theorem forall_mem_append_singleton {α : Type} {P : α → Prop} {l : List α} {a : α} (hl : ∀ x ∈ l, P x) (ha : P a) :
    ∀ x ∈ l ++ [a], P x := by
  intro x hx
  rcases List.mem_append.mp hx with hx | hx
  · exact hl x hx
  · exact List.mem_singleton.mp hx ▸ ha

/-- A step keeps it. -/
theorem kept_step {e e' : Ends} {a : Event} (he : Kept rules e) (h : step rules e a = some e') : Kept rules e' := by
  cases a with
  | start =>
    cases h
    exact { he with loops := forall_mem_append_singleton he.loops fun _ => id }
  | listen n ok =>
    simp only [step] at h
    split at h
    · rename_i portRule rest hloop
      have hrules : ∀ rule ∈ portRule :: rest, rule ∈ rules := he.loops _ (List.mem_of_getElem? hloop)
      cases h
      refine ⟨fun l hl => ?_, ?_, he.streams⟩
      · rcases List.mem_or_eq_of_mem_set hl with hl | rfl
        · exact he.loops l hl
        · exact fun rule hrule => hrules rule (List.mem_cons_of_mem _ hrule)
      · cases ok with
        | false => exact he.listeners
        | true => exact forall_mem_append_singleton he.listeners ⟨hrules _ List.mem_cons_self, rfl⟩
    · cases h
  | accept l =>
    simp only [step] at h
    split at h
    · rename_i f hf
      cases h
      exact { he with streams := forall_mem_append_singleton he.streams (he.listeners f (List.mem_of_getElem? hf)) }
    · cases h
  | handle i =>
    simp only [step] at h
    split at h
    · cases h
      exact { he with streams := fun f hf => he.streams f (List.mem_of_mem_eraseIdx hf) }
    · cases h

/-- Only the handling of a stream dials, and it dials the target of the rule when that is settled. -/
theorem careful_iff {e e' : Ends} {a : Event} (he : Kept rules e) (hgood : ¬ e.Misdialled)
    (h : step rules e a = some e') : e.Careful rules a ↔ ¬ e'.Misdialled := by
  cases a with
  | start =>
    cases h
    exact iff_of_true trivial hgood
  | listen n ok =>
    simp only [step] at h
    split at h
    · cases h
      exact iff_of_true trivial hgood
    · cases h
  | accept l =>
    simp only [step] at h
    split at h
    · cases h
      exact iff_of_true trivial hgood
    · cases h
  | handle i =>
    simp only [step] at h
    split at h
    · rename_i f hf
      obtain ⟨hrule, hport⟩ := he.streams f (List.mem_of_getElem? hf)
      cases h
      have hsettled : localTarget rules f.port = denoted f.rule ↔ Settled rules f.rule := by
        rw [hport]
        exact localTarget_eq_denoted_iff hrule
      constructor
      · rintro hcareful ⟨d, hd, hne⟩
        rcases List.mem_append.mp hd with hd | hd
        · exact hgood ⟨d, hd, hne⟩
        · cases List.mem_singleton.mp hd
          exact hne (hsettled.mpr (hcareful f hf))
      · intro hgood' g hg
        rw [hf, Option.mem_some_iff] at hg
        subst hg
        by_contra hs
        refine hgood' ⟨_, List.mem_append_right _ List.mem_cons_self, ?_⟩
        exact fun heq => hs (hsettled.mp heq)
    · cases h

/-- **When the client dials what the rules denote**: in the runs in which each stream that is handled
comes from a settled rule. -/
theorem settled_iff_never_misdials {events : List Event} {e : Ends} (h : exec (step rules) {} events = some e) :
    Along (step rules) (Careful rules) {} events ↔
      ∀ pre t, pre <+: events → exec (step rules) {} pre = some t → ¬ t.Misdialled :=
  along_iff_never (I := Kept rules) (fun _ _ _ => kept_step) (fun _ _ _ => careful_iff) kept_initial
    (by simp [Misdialled]) h

/-- Two rules for different ports, and a connection to each. -/
theorem two_ports_settled :
    Along (step [str "443=10.0.0.1:8443", str "8080"]) (Careful [str "443=10.0.0.1:8443", str "8080"]) {}
        [.start, .listen 0 true, .listen 0 true, .accept 0, .accept 1, .handle 1, .handle 0] ∧
      ∀ pre t, pre <+: [.start, .listen 0 true, .listen 0 true, .accept 0, .accept 1, .handle 1, .handle 0] →
        exec (step [str "443=10.0.0.1:8443", str "8080"]) {} pre = some t → ¬ t.Misdialled := by
  obtain ⟨e, he, -⟩ : ∃ e, exec (step [str "443=10.0.0.1:8443", str "8080"]) {}
      [.start, .listen 0 true, .listen 0 true, .accept 0, .accept 1, .handle 1, .handle 0] = some e ∧
      e.dials.length = 2 := exists_of_any (by decide +kernel)
  have halong : Along (step [str "443=10.0.0.1:8443", str "8080"]) (Careful [str "443=10.0.0.1:8443", str "8080"]) {}
      [.start, .listen 0 true, .listen 0 true, .accept 0, .accept 1, .handle 1, .handle 0] := by decide +kernel
  exact ⟨halong, (settled_iff_never_misdials he).mp halong⟩

/-- Of two rules for a port the server has bound the first, and the client dials the second. -/
theorem second_rule_dialled :
    ∃ e, exec (step [str "443=a:1", str "443=b:2"]) {}
        [.start, .listen 0 true, .listen 0 false, .accept 0, .handle 0] = some e ∧
      e.dials = [⟨str "443=a:1", str "b:2"⟩] ∧ denoted (str "443=a:1") = str "a:1" :=
  exists_of_any (by decide +kernel)

-- a rule with a second mark is not entered
example : localTarget [str "443=a=b"] (PortRules.listenPort (str "443=a=b")) = str "127.0.0.1:443" := by decide +kernel

end Ends

end Hawal.Forward.DialTargets
