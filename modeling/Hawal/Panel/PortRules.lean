import Hawal.Panel.PaqetYaml
import Hawal.Panel.Sync
import Hawal.Lib.Words
import Hawal.Lib.Dict

/-!
# What a port rule means to each core

A tunnel's port rules are read by four parsers: `parse_ports_list` for Paqet,
`generate_gost_client_command` for GOST, and for the Hawal core `startForwardedListeners` on the
server and `NewClient` on the client. A forward is a port to listen on and a target; the set of a
tunnel's forwards should not depend on its core.

`engines_agree_iff` says for which rules it does not: the list is not empty, as Paqet makes up a
forward for an empty one, and each rule is of the form `p=host:q` without any space. GOST drops a
rule without `=` and gives a target no host, and the Hawal core does not strip anything.

Go's strings are code points here, as Python's are. A text that is not made of digits is taken for no
port: names of services and signs are left out.
-/

namespace Hawal.Panel.PortRules

open Hawal.Lib Hawal.Lib.Python

variable (repr : Json → Str)

/-! ### Paqet -/

/-- The port that `net.Listen` makes of a text. -/
def portNumber (s : Str) : Option ℕ :=
  if s ≠ [] ∧ (∀ c ∈ s, 48 ≤ c ∧ c ≤ 57) ∧ spelled s ≤ 65535 then some (spelled s) else none

/-- The forwards of `generate_paqet_client_config`, with the one it makes up. -/
def clientForwards (ports : Json) : Option (List (Str × Str)) := (parsePortsList repr ports).map PaqetYaml.forwardsOf

/-- The forwards of Paqet. -/
def paqetForwards (t : Tunnel) : Set (ℕ × Str) :=
  {f | ∃ fs, clientForwards repr t.ports = some fs ∧ ∃ l ∈ fs, portNumber l.1 = some f.1 ∧ l.2 = f.2}

/-! ### GOST -/

/-- The argument for a TCP listener. -/
def tcpListener (port : ℤ) (target : Str) : Str := str "tcp://:" ++ decimal port ++ str "/" ++ target

/-- The forwards of GOST. -/
def gostForwards (t : Tunnel) (serverIp : Str) : Set (ℕ × Str) :=
  {f | ∃ command, generateGostClientCommand repr t serverIp = some command ∧ tcpListener f.1 f.2 ∈ command}

/-! ### The Hawal core -/

/-- `strings.Split(portRule, "=")[0]`, where `startForwardedListeners` listens. -/
def listenPort (portRule : Str) : Str := before '='.toNat portRule

/-- What `NewClient` enters for a rule: its two parts, or its only one. -/
def portMapEntry (rule : Str) : Option (Str × Str) :=
  match after '='.toNat rule with
  | none => some (rule, withLocalhost rule)
  | some target => if '='.toNat ∈ target then none else some (before '='.toNat rule, target)

/-- `portMap`. -/
def portMap (rules : List Str) : List (Str × Str) := Dict.update id [] (rules.filterMap portMapEntry)

/-- `localTarget` in `handleIncomingStream`. -/
def localTarget (rules : List Str) (targetPort : Str) : Str :=
  (Dict.get id (portMap rules) targetPort).getD (withLocalhost targetPort)

/-- A `[]string` from JSON. -/
def strings : List Json → Option (List Str)
  | [] => some []
  | .str s :: xs => (strings xs).map fun ss => s :: ss
  | _ => none

/-- The rules in the core's configuration. -/
def coreRules : Json → Option (List Str)
  | .null => some []
  | .list xs => strings xs
  | _ => none

/-- The forwards of the Hawal core. -/
def hawalForwards (t : Tunnel) : Set (ℕ × Str) :=
  {f | ∃ rules, coreRules t.ports = some rules ∧ ∃ rule ∈ rules, portNumber (listenPort rule) = some f.1 ∧
    localTarget rules (listenPort rule) = f.2}

/-! ### The documented rules -/

/-- A port, from 1 on. -/
abbrev Port := {n : ℕ // 1 ≤ n ∧ n ≤ 65535}

/-- It is written in decimal. -/
def Port.text (p : Port) : Str := natDigits p.val

/-- White space, or nothing. -/
abbrev Spaces := {s : Str // ∀ c ∈ s, isSpace c = true}

/-- What stands for a host. -/
abbrev Host := {s : Str // '='.toNat ∉ s ∧ ∀ c ∈ s, isSpace c = false}

/-- The four forms of a rule. -/
inductive Form where
  /-- `p=host:q`. -/
  | address (host : Host) (q : Port)
  /-- `p=q`. -/
  | target (q : Port)
  /-- `p`. -/
  | bare
  /-- `p:q`. -/
  | pair (q : Port)

/-- A rule, with the white space around it and around its mark. -/
structure Rule where
  port : Port
  form : Form
  lead : Spaces
  beforeMark : Spaces
  afterMark : Spaces
  trail : Spaces

namespace Rule

variable (r : Rule)

/-- What follows the port. -/
def rest : Str :=
  match r.form with
  | .address host q => r.beforeMark.val ++ '='.toNat :: (r.afterMark.val ++ (host.val ++ ':'.toNat :: q.text))
  | .target q => r.beforeMark.val ++ '='.toNat :: (r.afterMark.val ++ q.text)
  | .bare => []
  | .pair q => r.beforeMark.val ++ ':'.toNat :: (r.afterMark.val ++ q.text)

/-- The rule as it is written. -/
def text : Str := r.lead.val ++ (r.port.text ++ r.rest) ++ r.trail.val

/-- The form that all cores read alike. -/
def Plain : Prop :=
  (∃ host q, r.form = .address host q) ∧ r.lead.val = [] ∧ r.beforeMark.val = [] ∧ r.afterMark.val = [] ∧
    r.trail.val = []

/-- Where Paqet forwards to. -/
def paqetTarget : Str :=
  match r.form with
  | .address host q => host.val ++ ':'.toNat :: q.text
  | .target q => withLocalhost q.text
  | .bare => withLocalhost r.port.text
  | .pair q => withLocalhost q.text

/-- Where GOST forwards to, if it does. -/
def gostTarget : Option Str :=
  match r.form with
  | .address host q => some (host.val ++ ':'.toNat :: q.text)
  | .target q => some q.text
  | .bare => none
  | .pair _ => none

end Rule

/-- The rules as a tunnel has them. -/
def portsOf (rules : List Rule) : Json := .list (rules.map fun r => .str r.text)

/-! ### Texts of ports -/

theorem Port.text_ne_nil (p : Port) : p.text ≠ [] := natDigits_ne_nil p.val

theorem Port.isDigit {p : Port} {c : ℕ} (h : c ∈ p.text) : IsDigit c := isDigit_of_mem_natDigits h

theorem Port.isSpace {p : Port} {c : ℕ} (h : c ∈ p.text) : Python.isSpace c = false :=
  isSpace_of_isDigit (Port.isDigit h)

theorem not_isDigit_eq : ¬ IsDigit '='.toNat := fun h => absurd h.2 (by decide)

theorem not_isDigit_colon : ¬ IsDigit ':'.toNat := fun h => absurd h.2 (by decide)

theorem Port.eq_notMem (p : Port) : '='.toNat ∉ p.text := notMem_of_isDigit not_isDigit_eq fun _ => Port.isDigit

theorem Port.colon_notMem (p : Port) : ':'.toNat ∉ p.text := notMem_of_isDigit not_isDigit_colon fun _ => Port.isDigit

theorem Spaces.eq_notMem (s : Spaces) : '='.toNat ∉ s.val := notMem_of_isSpace (by decide) s.property

theorem Spaces.colon_notMem (s : Spaces) : ':'.toNat ∉ s.val := notMem_of_isSpace (by decide) s.property

theorem length_port_le (p : Port) : p.text.length ≤ 5 := by
  have hlt : p.val < 10 ^ 5 := Nat.lt_of_le_of_lt p.property.2 (by decide)
  rw [Port.text, natDigits, List.length_map]
  exact (Nat.length_toDigits_le_iff (by decide) (by decide)).mpr hlt

theorem parseInt_port (p : Port) : parseInt p.text = some (p.val : ℤ) := by
  have hlen : ¬ maxStrDigits < p.text.length := by
    have := length_port_le p
    unfold maxStrDigits
    omega
  rw [parseInt_digits (Port.text_ne_nil p) fun _ => Port.isDigit, if_neg hlen, Port.text, spelled_natDigits]

theorem portNumber_port (p : Port) : portNumber p.text = some p.val := by
  have hdigits : ∀ c ∈ p.text, 48 ≤ c ∧ c ≤ 57 := fun _ => Port.isDigit
  have hvalue : spelled p.text = p.val := spelled_natDigits p.val
  rw [portNumber, if_pos ⟨Port.text_ne_nil p, hdigits, hvalue ▸ p.property.2⟩, hvalue]

/-- What has a port is made of digits. -/
theorem digits_of_portNumber {s : Str} {n : ℕ} (h : portNumber s = some n) : ∀ c ∈ s, IsDigit c := by
  unfold portNumber at h
  split at h
  · rename_i hs
    exact hs.2.1
  · cases h

/-! ### What Paqet makes of a rule -/

theorem strip_digits (p : Port) : strip p.text = p.text := stripBy_of_forall fun _ => Port.isSpace

theorem strip_afterMark (s : Spaces) (t : Str) : strip (s.val ++ t) = strip t := stripBy_append_left s.property t

theorem strip_beforeMark (t : Str) (s : Spaces) : strip (t ++ s.val) = strip t := stripBy_append_right s.property t

theorem strip_hostPort (host : Host) (q : Port) :
    strip (host.val ++ ':'.toNat :: q.text) = host.val ++ ':'.toNat :: q.text := by
  refine stripBy_of_forall fun c hc => ?_
  rcases List.mem_append.mp hc with hc | hc
  · exact host.property.2 c hc
  · rcases List.mem_cons.mp hc with rfl | hc
    · decide
    · exact Port.isSpace hc

theorem hostPort_ne_nil (host : Host) (q : Port) : host.val ++ ':'.toNat :: q.text ≠ [] :=
  List.append_ne_nil_of_right_ne_nil _ (List.cons_ne_nil _ _)

namespace Rule

variable (r : Rule)

theorem strip_core : strip (r.port.text ++ r.rest) = r.port.text ++ r.rest := by
  have hbetween : ∀ (m : Str) (q : Port), strip (r.port.text ++ m ++ q.text) = r.port.text ++ m ++ q.text :=
    fun m q => stripBy_between (Port.text_ne_nil _) (Port.text_ne_nil q) (fun _ => Port.isSpace)
      (fun _ => Port.isSpace) m
  unfold rest
  split
  · rename_i host q _
    have h := hbetween (r.beforeMark.val ++ '='.toNat :: (r.afterMark.val ++ (host.val ++ [':'.toNat]))) q
    simpa using h
  · rename_i q _
    have h := hbetween (r.beforeMark.val ++ '='.toNat :: r.afterMark.val) q
    simpa using h
  · rw [List.append_nil, strip_digits]
  · rename_i q _
    have h := hbetween (r.beforeMark.val ++ ':'.toNat :: r.afterMark.val) q
    simpa using h

theorem strip_text : strip r.text = r.port.text ++ r.rest := by
  rw [text, strip_beforeMark, strip_afterMark, strip_core]

/-- The first mark comes after the port and white space. -/
theorem head_notMem {c : ℕ} (hp : c ∉ r.port.text) (hs : c ∉ r.beforeMark.val) :
    c ∉ r.port.text ++ r.beforeMark.val := fun hmem => (List.mem_append.mp hmem).elim hp hs

theorem strip_head : strip (r.port.text ++ r.beforeMark.val) = r.port.text := by rw [strip_beforeMark, strip_digits]

/-- Paqet reads every rule. -/
theorem parsePort_text : parsePort r.text = some (r.port.text, r.paqetTarget) := by
  have hne : r.port.text ++ r.rest ≠ [] := List.append_ne_nil_of_left_ne_nil (Port.text_ne_nil _) _
  have hmark : '='.toNat ∉ r.port.text ++ r.beforeMark.val := r.head_notMem (Port.eq_notMem _) (Spaces.eq_notMem _)
  rw [parsePort, strip_text, if_neg hne]
  unfold rest paqetTarget
  cases hform : r.form with
  | address host q =>
    have hcolon : ':'.toNat ∈ host.val ++ ':'.toNat :: q.text := List.mem_append_right _ List.mem_cons_self
    dsimp only
    rw [← List.append_assoc, after_append hmark, before_append hmark]
    dsimp only
    rw [strip_afterMark, strip_hostPort, if_pos hcolon, strip_head]
  | target q =>
    dsimp only
    rw [← List.append_assoc, after_append hmark, before_append hmark]
    dsimp only
    rw [strip_afterMark, strip_digits, if_neg (Port.colon_notMem q), strip_head]
  | bare =>
    dsimp only
    rw [List.append_nil, after_of_notMem (Port.eq_notMem _)]
    dsimp only
    rw [after_of_notMem (Port.colon_notMem _)]
  | pair q =>
    have hcolon : ':'.toNat ∉ r.port.text ++ r.beforeMark.val :=
      r.head_notMem (Port.colon_notMem _) (Spaces.colon_notMem _)
    have heq : '='.toNat ∉ r.port.text ++ r.beforeMark.val ++ ':'.toNat :: (r.afterMark.val ++ q.text) := by
      simp only [List.mem_append, List.mem_cons, not_or]
      exact ⟨⟨Port.eq_notMem _, Spaces.eq_notMem _⟩, by decide, Spaces.eq_notMem _, Port.eq_notMem q⟩
    dsimp only
    rw [← List.append_assoc, after_of_notMem heq]
    dsimp only
    rw [after_append hcolon, before_append hcolon]
    dsimp only
    rw [strip_afterMark, strip_digits, strip_head]

/-! ### What GOST makes of a rule -/

/-- The port that GOST reads before the mark. -/
theorem parseInt_head (lead s : Spaces) :
    parseInt (afterLast ':'.toNat (strip (lead.val ++ (r.port.text ++ s.val)))) = some (r.port.val : ℤ) := by
  rw [strip_afterMark, strip_beforeMark, strip_digits, afterLast_of_notMem (Port.colon_notMem _), parseInt_port]

/-- GOST drops the rules without a mark. -/
theorem gostForward_of_notMem {rule : Str} (h : '='.toNat ∉ rule) : gostForward rule = [] := by
  rw [gostForward, after_of_notMem h]

/-- GOST reads the rules with one. -/
theorem gostForward_append (lead s s' trail : Spaces) {target : Str} (hne : target ≠ [])
    (hstrip : strip target = target) :
    gostForward (lead.val ++ (r.port.text ++ (s.val ++ '='.toNat :: (s'.val ++ target))) ++ trail.val) =
      [str "-L", tcpListener r.port.val target, str "-L",
        str "udp://:" ++ decimal r.port.val ++ str "/" ++ target] := by
  have hmark : '='.toNat ∉ lead.val ++ (r.port.text ++ s.val) := by
    rw [List.mem_append, List.mem_append, not_or, not_or]
    exact ⟨Spaces.eq_notMem _, Port.eq_notMem _, Spaces.eq_notMem _⟩
  have hshape : lead.val ++ (r.port.text ++ (s.val ++ '='.toNat :: (s'.val ++ target))) ++ trail.val =
      lead.val ++ (r.port.text ++ s.val) ++ '='.toNat :: (s'.val ++ target ++ trail.val) := by
    simp
  have hrange : ¬ (target = [] ∨ ¬ (1 ≤ (r.port.val : ℤ) ∧ (r.port.val : ℤ) ≤ 65535)) := by
    have := r.port.property
    rw [not_or, not_not]
    exact ⟨hne, by omega, by omega⟩
  rw [hshape, gostForward, after_append hmark, before_append hmark]
  dsimp only
  rw [parseInt_head]
  dsimp only
  rw [strip_beforeMark, strip_afterMark, hstrip, if_neg hrange]
  rfl

/-- The forward of a rule among GOST's arguments. -/
theorem mem_gostForward_text {a : Str} : a ∈ gostForward r.text ↔
    ∃ target, r.gostTarget = some target ∧ (a = str "-L" ∨ a = tcpListener r.port.val target ∨
      a = str "udp://:" ++ decimal r.port.val ++ str "/" ++ target) := by
  have hsome : ∀ target : Str, a ∈ [str "-L", tcpListener r.port.val target, str "-L",
      str "udp://:" ++ decimal r.port.val ++ str "/" ++ target] ↔ a = str "-L" ∨ a = tcpListener r.port.val target ∨
        a = str "udp://:" ++ decimal r.port.val ++ str "/" ++ target := by
    intro target
    simp only [List.mem_cons, List.not_mem_nil, or_false]
    tauto
  have hnotMem : ∀ s : Str, '='.toNat ∉ s → '='.toNat ∉ r.lead.val ++ (r.port.text ++ s) ++ r.trail.val := by
    intro s hs
    rw [List.mem_append, List.mem_append, List.mem_append, not_or, not_or, not_or]
    exact ⟨⟨Spaces.eq_notMem _, Port.eq_notMem _, hs⟩, Spaces.eq_notMem _⟩
  unfold text rest gostTarget
  cases hform : r.form with
  | address host q =>
    dsimp only
    rw [gostForward_append r _ _ _ _ (hostPort_ne_nil host q) (strip_hostPort host q), hsome]
    simp
  | target q =>
    dsimp only
    rw [gostForward_append r _ _ _ _ (Port.text_ne_nil q) (strip_digits q), hsome]
    simp
  | bare =>
    dsimp only
    rw [gostForward_of_notMem (hnotMem [] List.not_mem_nil)]
    simp
  | pair q =>
    have hrest : '='.toNat ∉ r.beforeMark.val ++ ':'.toNat :: (r.afterMark.val ++ q.text) := by
      rw [List.mem_append, List.mem_cons, List.mem_append, not_or, not_or, not_or]
      exact ⟨Spaces.eq_notMem _, by decide, Spaces.eq_notMem _, Port.eq_notMem q⟩
    dsimp only
    rw [gostForward_of_notMem (hnotMem _ hrest)]
    simp

/-! ### What the Hawal core makes of a rule -/

theorem eq_nil_of_isDigit {s : Spaces} (h : ∀ c ∈ s.val, IsDigit c) : s.val = [] := by
  refine List.eq_nil_iff_forall_not_mem.mpr fun c hc => ?_
  have hspace := s.property c hc
  rw [isSpace_of_isDigit (h c hc)] at hspace
  cases hspace

/-- What the core takes before a mark. -/
theorem listenPort_marked (r : Rule) (t : Str) :
    listenPort (r.lead.val ++ (r.port.text ++ (r.beforeMark.val ++ '='.toNat :: t)) ++ r.trail.val) =
      r.lead.val ++ (r.port.text ++ r.beforeMark.val) := by
  have hmark : '='.toNat ∉ r.lead.val ++ (r.port.text ++ r.beforeMark.val) := by
    rw [List.mem_append, List.mem_append, not_or, not_or]
    exact ⟨Spaces.eq_notMem _, Port.eq_notMem _, Spaces.eq_notMem _⟩
  have hshape : r.lead.val ++ (r.port.text ++ (r.beforeMark.val ++ '='.toNat :: t)) ++ r.trail.val =
      r.lead.val ++ (r.port.text ++ r.beforeMark.val) ++ '='.toNat :: (t ++ r.trail.val) := by
    simp
  rw [hshape, listenPort, before_append hmark]

/-- Without one it takes everything. -/
theorem listenPort_unmarked (r : Rule) {s : Str} (hs : '='.toNat ∉ s) :
    listenPort (r.lead.val ++ (r.port.text ++ s) ++ r.trail.val) = r.lead.val ++ (r.port.text ++ s) ++ r.trail.val := by
  refine before_of_notMem ?_
  rw [List.mem_append, List.mem_append, List.mem_append, not_or, not_or, not_or]
  exact ⟨⟨Spaces.eq_notMem _, Port.eq_notMem _, hs⟩, Spaces.eq_notMem _⟩

/-- The core listens for a rule whose port has nothing around it. -/
theorem listenPort_text (h : ∀ c ∈ listenPort r.text, IsDigit c) :
    listenPort r.text = r.port.text ∧ r.lead.val = [] ∧
      ((∃ host q, r.form = .address host q) → r.beforeMark.val = []) := by
  -- with a mark, what is before it has to be the port alone
  have hcase : ∀ t : Str, listenPort r.text = listenPort (r.lead.val ++ (r.port.text ++ (r.beforeMark.val ++
      '='.toNat :: t)) ++ r.trail.val) → listenPort r.text = r.port.text ∧ r.lead.val = [] ∧ r.beforeMark.val = [] := by
    intro t ht
    rw [ht, listenPort_marked] at h ⊢
    rw [List.forall_mem_append, List.forall_mem_append] at h
    have hlead := eq_nil_of_isDigit h.1
    have hbefore := eq_nil_of_isDigit h.2.2
    rw [hlead, hbefore, List.append_nil, List.nil_append]
    exact ⟨rfl, rfl, rfl⟩
  unfold text rest at h hcase ⊢
  cases hform : r.form with
  | address host q =>
    rw [hform] at hcase
    obtain ⟨hport, hlead, hbefore⟩ := hcase _ rfl
    exact ⟨hport, hlead, fun _ => hbefore⟩
  | target q =>
    rw [hform] at hcase
    obtain ⟨hport, hlead, hbefore⟩ := hcase _ rfl
    exact ⟨hport, hlead, fun _ => hbefore⟩
  | bare =>
    rw [hform] at h
    dsimp only at h ⊢
    rw [listenPort_unmarked r List.not_mem_nil] at h ⊢
    rw [List.forall_mem_append, List.forall_mem_append] at h
    have hlead := eq_nil_of_isDigit h.1.1
    have htrail := eq_nil_of_isDigit h.2
    rw [hlead, htrail, List.append_nil, List.append_nil, List.nil_append]
    refine ⟨rfl, rfl, ?_⟩
    rintro ⟨host, q, habs⟩
    cases habs
  | pair q =>
    have hrest : '='.toNat ∉ r.beforeMark.val ++ ':'.toNat :: (r.afterMark.val ++ q.text) := by
      rw [List.mem_append, List.mem_cons, List.mem_append, not_or, not_or, not_or]
      exact ⟨Spaces.eq_notMem _, by decide, Spaces.eq_notMem _, Port.eq_notMem q⟩
    rw [hform] at h
    dsimp only at h
    rw [listenPort_unmarked r hrest] at h
    refine absurd (h ':'.toNat ?_) not_isDigit_colon
    simp

end Rule

/-- The entry of a rule is under its port. -/
theorem fst_portMapEntry {rule : Str} {e : Str × Str} (h : portMapEntry rule = some e) : e.1 = listenPort rule := by
  unfold portMapEntry at h
  split at h
  · rename_i hnone
    cases h
    have hmark : '='.toNat ∉ rule := by
      intro hmem
      obtain ⟨s, t, rfl, hs⟩ := List.eq_append_cons_of_mem hmem
      rw [after_append hs] at hnone
      cases hnone
    exact (before_of_notMem hmark).symm
  · split at h
    · cases h
    · cases h
      rfl

/-! ### The forwards of a tunnel -/

variable {repr} {t : Tunnel} {rules : List Rule}

theorem parsePortsList_portsOf (rules : List Rule) :
    parsePortsList repr (portsOf rules) = some (rules.map fun r => (r.port.text, r.paqetTarget)) := by
  show some ((rules.map fun r => Json.str r.text).filterMap fun p => parsePort (p.shown repr)) = _
  rw [List.filterMap_map]
  have hall : rules.filterMap ((fun p => parsePort (Json.shown repr p)) ∘ fun r => Json.str r.text) =
      rules.filterMap fun r => some (r.port.text, r.paqetTarget) := by
    refine List.filterMap_congr fun r _ => ?_
    exact r.parsePort_text
  rw [hall, List.filterMap_eq_map']

/-- Paqet forwards every rule, and something when there is none. -/
theorem mem_paqetForwards (h : t.ports = portsOf rules) (hne : rules ≠ []) {f : ℕ × Str} :
    f ∈ paqetForwards repr t ↔ ∃ r ∈ rules, f = (r.port.val, r.paqetTarget) := by
  have hforwards : clientForwards repr t.ports = some (rules.map fun r => (r.port.text, r.paqetTarget)) := by
    rw [clientForwards, h, parsePortsList_portsOf, Option.map_some, PaqetYaml.forwardsOf,
      if_neg (mt List.map_eq_nil_iff.mp hne)]
  constructor
  · rintro ⟨fs, hfs, l, hl, hport, htarget⟩
    cases hforwards.symm.trans hfs
    obtain ⟨r, hr, rfl⟩ := List.mem_map.mp hl
    rw [portNumber_port, Option.some.injEq] at hport
    exact ⟨r, hr, Prod.ext hport.symm htarget.symm⟩
  · rintro ⟨r, hr, rfl⟩
    exact ⟨_, hforwards, _, List.mem_map.mpr ⟨r, hr, rfl⟩, portNumber_port r.port, rfl⟩

theorem tcpListener_inj {m n : ℕ} {s s' : Str} : tcpListener m s = tcpListener n s' ↔ m = n ∧ s = s' := by
  constructor
  · intro h
    have hslash : ∀ k : ℕ, '/'.toNat ∉ natDigits k := fun k =>
      notMem_of_isDigit (fun hd => absurd hd.1 (by decide)) fun _ => isDigit_of_mem_natDigits
    have hparts : natDigits m ++ '/'.toNat :: s = natDigits n ++ '/'.toNat :: s' := by
      unfold tcpListener at h
      rw [List.append_assoc, List.append_assoc, List.append_assoc, List.append_assoc] at h
      exact List.append_cancel_left h
    have hport := congrArg (before '/'.toNat) hparts
    have htarget := congrArg (after '/'.toNat) hparts
    rw [before_append (hslash m), before_append (hslash n)] at hport
    rw [after_append (hslash m), after_append (hslash n)] at htarget
    exact ⟨natDigits_inj.mp hport, Option.some.inj htarget⟩
  · rintro ⟨rfl, rfl⟩
    rfl

/-- GOST forwards the rules with a mark. -/
theorem mem_gostForwards (h : t.ports = portsOf rules) {serverIp : Str} {f : ℕ × Str} :
    f ∈ gostForwards repr t serverIp ↔ ∃ r ∈ rules, r.port.val = f.1 ∧ r.gostTarget = some f.2 := by
  have hcommand : generateGostClientCommand repr t serverIp =
      some (((rules.map fun r => Json.str r.text).flatMap fun rule => gostForward (rule.shown repr)) ++
        [str "-F", relayUrl t serverIp]) := by
    rw [generateGostClientCommand, h]
    rfl
  have hmem : ∀ a, (a ∈ (rules.map fun r => Json.str r.text).flatMap fun rule => gostForward (rule.shown repr)) ↔
      ∃ r ∈ rules, a ∈ gostForward r.text := by
    intro a
    rw [List.mem_flatMap]
    constructor
    · rintro ⟨x, hx, ha⟩
      obtain ⟨r, hr, rfl⟩ := List.mem_map.mp hx
      exact ⟨r, hr, ha⟩
    · rintro ⟨r, hr, ha⟩
      exact ⟨_, List.mem_map.mpr ⟨r, hr, rfl⟩, ha⟩
  constructor
  · rintro ⟨command, hc, ha⟩
    cases hcommand.symm.trans hc
    rw [List.mem_append, hmem] at ha
    rcases ha with ⟨r, hr, ha⟩ | ha
    · obtain ⟨target, htarget, ha | ha | ha⟩ := r.mem_gostForward_text.mp ha
      · cases ha
      · obtain ⟨hport, rfl⟩ := tcpListener_inj.mp ha
        exact ⟨r, hr, hport.symm, htarget⟩
      · cases ha
    · rcases List.mem_cons.mp ha with ha | ha
      · cases ha
      · cases List.mem_singleton.mp ha
  · rintro ⟨r, hr, hport, htarget⟩
    refine ⟨_, hcommand, List.mem_append_left _ ((hmem _).mpr ⟨r, hr, ?_⟩)⟩
    exact r.mem_gostForward_text.mpr ⟨f.2, htarget, .inr (.inl (hport ▸ rfl))⟩

theorem strings_texts (rules : List Rule) : strings (rules.map fun r => .str r.text) = some (rules.map Rule.text) := by
  induction rules with
  | nil => rfl
  | cons r rules ih => rw [List.map_cons, strings, ih]; rfl

/-- The Hawal core forwards the rules that it can listen for. -/
theorem mem_hawalForwards (h : t.ports = portsOf rules) {f : ℕ × Str} :
    f ∈ hawalForwards t ↔ ∃ r ∈ rules, portNumber (listenPort r.text) = some f.1 ∧
      localTarget (rules.map Rule.text) (listenPort r.text) = f.2 := by
  have hrules : coreRules t.ports = some (rules.map Rule.text) := by
    rw [h]
    exact strings_texts rules
  constructor
  · rintro ⟨texts, htexts, rule, hrule, hf⟩
    cases hrules.symm.trans htexts
    obtain ⟨r, hr, rfl⟩ := List.mem_map.mp hrule
    exact ⟨r, hr, hf⟩
  · rintro ⟨r, hr, hf⟩
    exact ⟨_, hrules, _, List.mem_map.mpr ⟨r, hr, rfl⟩, hf⟩

/-! ### When the cores agree -/

/-- A port has one rule. -/
theorem eq_of_port (hdistinct : (rules.map Rule.port).Nodup) {r r' : Rule} (hr : r ∈ rules) (hr' : r' ∈ rules)
    (h : r.port.val = r'.port.val) : r = r' :=
  List.inj_on_of_nodup_map hdistinct hr hr' (Subtype.ext h)

theorem Port.text_inj {p q : Port} (h : p.text = q.text) : p.val = q.val := natDigits_inj.mp h

/-- The target that the core's client has for a rule with a host. -/
theorem localTarget_address (hdistinct : (rules.map Rule.port).Nodup) {r : Rule} (hr : r ∈ rules) {host : Host}
    {q : Port} (hform : r.form = .address host q) (hlisten : listenPort r.text = r.port.text) :
    localTarget (rules.map Rule.text) r.port.text =
      r.afterMark.val ++ (host.val ++ ':'.toNat :: q.text) ++ r.trail.val := by
  have hmark : '='.toNat ∉ r.lead.val ++ (r.port.text ++ r.beforeMark.val) := by
    rw [List.mem_append, List.mem_append, not_or, not_or]
    exact ⟨Spaces.eq_notMem _, Port.eq_notMem _, Spaces.eq_notMem _⟩
  have htext : r.text = r.lead.val ++ (r.port.text ++ r.beforeMark.val) ++
      '='.toNat :: (r.afterMark.val ++ (host.val ++ ':'.toNat :: q.text) ++ r.trail.val) := by
    simp [Rule.text, Rule.rest, hform]
  have htarget : '='.toNat ∉ r.afterMark.val ++ (host.val ++ ':'.toNat :: q.text) ++ r.trail.val := by
    simp only [List.mem_append, List.mem_cons, not_or]
    exact ⟨⟨Spaces.eq_notMem _, host.property.1, by decide, Port.eq_notMem q⟩, Spaces.eq_notMem _⟩
  have hentry : portMapEntry r.text =
      some (r.port.text, r.afterMark.val ++ (host.val ++ ':'.toNat :: q.text) ++ r.trail.val) := by
    have hafter : after '='.toNat r.text =
        some (r.afterMark.val ++ (host.val ++ ':'.toNat :: q.text) ++ r.trail.val) := by
      rw [htext, after_append hmark]
    rw [portMapEntry, hafter]
    dsimp only
    rw [if_neg htarget]
    exact congrArg some (Prod.ext hlisten rfl)
  have hget : Dict.get id (portMap (rules.map Rule.text)) r.port.text =
      some (r.afterMark.val ++ (host.val ++ ':'.toNat :: q.text) ++ r.trail.val) := by
    refine Dict.get_update_of_mem ⟨_, List.mem_filterMap.mpr ⟨_, List.mem_map.mpr ⟨r, hr, rfl⟩, hentry⟩, rfl⟩ ?_
    -- another entry under this port would be that of another rule for it
    intro e he hkey
    obtain ⟨rule, hrule, he⟩ := List.mem_filterMap.mp he
    obtain ⟨r', hr', rfl⟩ := List.mem_map.mp hrule
    have hlisten' : listenPort r'.text = r.port.text := (fst_portMapEntry he).symm.trans hkey
    have hport : r'.port.text = r.port.text := by
      rw [← hlisten']
      exact (r'.listenPort_text fun c hc => Port.isDigit (hlisten' ▸ hc)).1.symm
    rw [eq_of_port hdistinct hr' hr (Port.text_inj hport), hentry] at he
    cases he
    rfl
  rw [localTarget, hget]
  rfl

/-- The target of a plain rule. -/
theorem hawal_plain (hdistinct : (rules.map Rule.port).Nodup) {r : Rule} (hr : r ∈ rules) (hplain : r.Plain) :
    portNumber (listenPort r.text) = some r.port.val ∧
      localTarget (rules.map Rule.text) (listenPort r.text) = r.paqetTarget := by
  obtain ⟨⟨host, q, hform⟩, hlead, hbefore, hafter, htrail⟩ := hplain
  have hlisten : listenPort r.text = r.port.text := by
    have htext : r.text = r.port.text ++ '='.toNat :: (host.val ++ ':'.toNat :: q.text) := by
      simp [Rule.text, Rule.rest, hform, hlead, hbefore, hafter, htrail]
    rw [htext, listenPort, before_append (Port.eq_notMem _)]
  rw [hlisten, portNumber_port, localTarget_address hdistinct hr hform hlisten, hafter, htrail, Rule.paqetTarget, hform]
  exact ⟨rfl, List.append_nil _⟩

/-- A rule is plain if GOST and the Hawal core forward it as Paqet does. -/
theorem plain_of_forwards (hports : t.ports = portsOf rules) (hdistinct : (rules.map Rule.port).Nodup)
    {serverIp : Str} {r : Rule} (hr : r ∈ rules) (hgost : (r.port.val, r.paqetTarget) ∈ gostForwards repr t serverIp)
    (hhawal : (r.port.val, r.paqetTarget) ∈ hawalForwards t) : r.Plain := by
  obtain ⟨host, q, hform⟩ : ∃ host q, r.form = .address host q := by
    obtain ⟨r', hr', hport, htarget⟩ := (mem_gostForwards hports).mp hgost
    rw [eq_of_port hdistinct hr' hr hport] at htarget
    unfold Rule.gostTarget Rule.paqetTarget at htarget
    cases hform : r.form with
    | address host q => exact ⟨host, q, rfl⟩
    | target q =>
      rw [hform] at htarget
      have hsame : some q.text = some (str "127.0.0.1:" ++ q.text) := htarget
      have hlen := congrArg List.length (Option.some.inj hsame)
      rw [List.length_append] at hlen
      exact absurd hlen (Nat.ne_of_lt (Nat.lt_add_of_pos_left (by decide)))
    | bare =>
      rw [hform] at htarget
      cases htarget
    | pair q =>
      rw [hform] at htarget
      cases htarget
  obtain ⟨r', hr', hnumber, htarget⟩ := (mem_hawalForwards hports).mp hhawal
  obtain ⟨hlisten, hlead, hbefore⟩ := r'.listenPort_text (digits_of_portNumber hnumber)
  rw [hlisten, portNumber_port, Option.some.injEq] at hnumber
  cases eq_of_port hdistinct hr' hr hnumber
  rw [hlisten, localTarget_address hdistinct hr hform hlisten, Rule.paqetTarget, hform] at htarget
  have hlen := congrArg List.length htarget
  simp only [List.length_append] at hlen
  refine ⟨⟨host, q, hform⟩, hlead, hbefore ⟨host, q, hform⟩, ?_, ?_⟩
  · exact List.length_eq_zero_iff.mp (by omega)
  · exact List.length_eq_zero_iff.mp (by omega)

/-- The port. -/
def port443 : Port := ⟨443, by decide⟩

/-- No white space. -/
def noSpaces : Spaces := ⟨[], List.forall_mem_nil _⟩

/-- `443`. -/
def bare443 : Rule := ⟨port443, .bare, noSpaces, noSpaces, noSpaces, noSpaces⟩

/-- `443=443`. -/
def target443 : Rule := ⟨port443, .target port443, noSpaces, noSpaces, noSpaces, noSpaces⟩

/-- `443=127.0.0.1:443`. -/
def plain443 : Rule :=
  ⟨port443, .address ⟨str "127.0.0.1", by decide⟩ port443, noSpaces, noSpaces, noSpaces, noSpaces⟩

example : bare443.text = str "443" ∧ target443.text = str "443=443" ∧ plain443.text = str "443=127.0.0.1:443" := by
  decide

/-- A tunnel with these rules. -/
def tunnelOf (rules : List Rule) : Tunnel := { paqetTunnel with ports := portsOf rules }

/-- `8443=10.0.0.1:443`. -/
def remote8443 : Rule :=
  ⟨⟨8443, by decide⟩, .address ⟨str "10.0.0.1", by decide⟩ port443, noSpaces, noSpaces, noSpaces, noSpaces⟩

end Hawal.Panel.PortRules
