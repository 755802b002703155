import Hawal.Agent.Accounting
import Hawal.Lib.Lines
import Hawal.Lib.Words
import Mathlib.Data.List.Find

/-!
# Which rule's counter is read

`_iptables_bytes` looks for a port in the lines of `iptables -t raw -nvxL <chain>`: the first line
counts in which both `dpt:<port>` (or `spt:<port>`) and `NOTRACK` occur. The text for a port occurs in
that for a port with more digits, so the rule that is found may be another tunnel's.

A listing is given by its rules (`RawRule`): a line begins with the two counts, the rest are words and
spaces. What a rule does is kept apart from the words that show it, since a comment may show anything.

* `Answers` — the counter is that of a `NOTRACK` rule for the port, or there is no such rule.
* `answers_iff` — when it is.
* `hit_iff_of_plain`, `answers_iff_of_plain` — the rules that are found, when no comment gets in the way, and when the
  counter is right then; among rules of the agent none does (`answers_iff_of_paqetRules`).
-/

namespace Hawal.Agent.RawCounter

open Hawal.Lib Hawal.Lib.Python

/-! ### Listings -/

/-- A word of a line. -/
abbrev Word := {s : Str // s ≠ [] ∧ ∀ c ∈ s, isSpace c = false}

/-- A number is a word. -/
def numberWord (n : ℕ) : Word :=
  ⟨natDigits n, natDigits_ne_nil n, fun _ hc => isSpace_of_isDigit (isDigit_of_mem_natDigits hc)⟩

/-- `port_kind`. -/
inductive PortKind where
  | dport
  | sport
  deriving DecidableEq, Repr

/-- `display_kind`. -/
def PortKind.displayKind : PortKind → Str
  | .dport => str "dpt"
  | .sport => str "spt"

/-- `needle`, and how a rule shows that it matches a port. -/
def needle (kind : PortKind) (port : ℕ) : Str := kind.displayKind ++ str ":" ++ decimal port

/-- A rule of the raw table, and its line. -/
structure RawRule where
  packets : ℕ
  bytes : ℕ
  /-- The spaces before the first count, and those after it but for one. -/
  lead : ℕ
  gap : ℕ
  /-- The words after the counts, each with the spaces before it but for one. -/
  words : List (ℕ × Word)
  /-- The spaces at the end. -/
  trail : ℕ
  /-- Its target is `NOTRACK`. -/
  notrack : Bool
  /-- The port that it matches. -/
  port : PortKind → Option ℕ
  bytes_lt : bytes < 2 ^ 64
  shows_target : notrack = true → ∃ w ∈ words, w.2.val = str "NOTRACK"
  shows_port : ∀ kind, ∀ p ∈ port kind, ∃ w ∈ words, w.2.val = needle kind p

/-- A number of spaces. -/
def spaces (n : ℕ) : Str := List.replicate n 32

namespace RawRule

variable (r : RawRule)

/-- The words after the first. -/
def cells : List (ℕ × Word) := (r.gap, numberWord r.bytes) :: r.words

/-- The line of a rule. -/
def line : Str :=
  spaces r.lead ++ (natDigits r.packets ++ (r.cells.flatMap fun w => spaces (w.1 + 1) ++ w.2.val) ++ spaces r.trail)

/-- It is a `NOTRACK` rule for the port. -/
def IsFor (kind : PortKind) (port : ℕ) : Prop := r.notrack = true ∧ r.port kind = some port

instance (kind : PortKind) (port : ℕ) : Decidable (r.IsFor kind port) := inferInstanceAs (Decidable (_ ∧ _))

/-- A text occurs in its words. -/
def Shows (text : Str) : Prop := ∃ w ∈ r.words, text <:+: w.2.val

instance (text : Str) : Decidable (r.Shows text) := inferInstanceAs (Decidable (∃ w ∈ _, _))

/-- **The rules that are found for a port.** -/
def Hit (kind : PortKind) (port : ℕ) : Prop := r.Shows (needle kind port) ∧ r.Shows (str "NOTRACK")

instance (kind : PortKind) (port : ℕ) : Decidable (r.Hit kind port) := inferInstanceAs (Decidable (_ ∧ _))

end RawRule

/-- What `iptables` prints for a chain: lines about the chain and its columns, and the rules. -/
structure Listing where
  header : List Str
  rules : List RawRule
  header_lines : ∀ l ∈ header, ∀ c ∈ l, isLineBreak c = false
  header_target : ∀ l ∈ header, ¬ str "NOTRACK" <:+: l

namespace Listing

variable (l : Listing)

/-- `result.stdout`. -/
def stdout : Str := unlines (l.header ++ l.rules.map RawRule.line)

/-- `_iptables_bytes`, of a chain with this listing. -/
def bytesOf (kind : PortKind) (port : ℕ) : Option ℤ :=
  iptablesBytes (some (splitlines l.stdout)) kind.displayKind port

/-- **The lookup is exact**: what is returned is the counter of a `NOTRACK` rule for the port, and it
raises only if there is none. -/
def Answers (kind : PortKind) (port : ℕ) : Option ℤ → Prop
  | some n => ∃ r ∈ l.rules, r.IsFor kind port ∧ (r.bytes : ℤ) = n
  | none => ∀ r ∈ l.rules, ¬ r.IsFor kind port

instance (kind : PortKind) (port : ℕ) : (n : Option ℤ) → Decidable (l.Answers kind port n)
  | some _ => inferInstanceAs (Decidable (∃ r ∈ l.rules, _))
  | none => inferInstanceAs (Decidable (∀ r ∈ l.rules, _))

/-- The first rule that is found. -/
def firstHit (kind : PortKind) (port : ℕ) : Option RawRule := l.rules.find? fun r => decide (r.Hit kind port)

end Listing

/-! ### The rules of the agent -/

theorem isSpace_displayKind {kind : PortKind} {c : ℕ} (h : c ∈ kind.displayKind ++ str ":") : isSpace c = false := by
  cases kind <;> revert c <;> decide

theorem isSpace_needle {kind : PortKind} {port c : ℕ} (h : c ∈ needle kind port) : isSpace c = false := by
  rcases List.mem_append.mp h with h | h
  · exact isSpace_displayKind h
  · exact isSpace_of_isDigit (isDigit_of_mem_natDigits h)

theorem needle_ne_nil (kind : PortKind) (port : ℕ) : needle kind port ≠ [] := by
  unfold needle
  cases kind <;> exact List.append_ne_nil_of_left_ne_nil (by decide) _

/-- How the match is shown. -/
def portWord (kind : PortKind) (port : ℕ) : Word := ⟨needle kind port, needle_ne_nil kind port, fun _ => isSpace_needle⟩

/-- A rule that `configure_paqet_iptables` has added, with its counts. -/
def paqetRule (kind : PortKind) (corePort packets bytes : ℕ) (h : bytes < 2 ^ 64) : RawRule where
  packets := packets
  bytes := bytes
  lead := 3
  gap := 3
  words := [(0, ⟨str "NOTRACK", by decide⟩), (3, ⟨str "6", by decide⟩), (4, ⟨str "--", by decide⟩),
    (1, ⟨str "*", by decide⟩), (6, ⟨str "*", by decide⟩), (6, ⟨str "0.0.0.0/0", by decide⟩),
    (11, ⟨str "0.0.0.0/0", by decide⟩), (11, ⟨str "tcp", by decide⟩), (0, portWord kind corePort)]
  trail := 0
  notrack := true
  port := fun k => if k = kind then some corePort else none
  bytes_lt := h
  shows_target := fun _ => ⟨_, List.mem_cons_self, rfl⟩
  shows_port := by
    intro k p hp
    refine ⟨(0, portWord kind corePort), by simp, ?_⟩
    split at hp
    · rename_i hk
      cases hp
      rw [hk]
      rfl
    · cases hp

/-! ### Columns -/

theorem columns_append_space {c : ℕ} (hc : isSpace c = true) (s t : Str) :
    columns (s ++ c :: t) = columns s ++ columns t := by
  rw [columns, List.splitOnP_append_cons s t hc, List.filter_append]
  rfl

theorem columns_nil : columns [] = [] := rfl

theorem columns_word (w : Word) : columns w.val = [w.val] := by
  rw [columns, List.splitOnP_eq_singleton w.property.2, List.filter_cons_of_pos]
  · rfl
  · simp [w.property.1]

theorem columns_spaces (n : ℕ) (s : Str) : columns (spaces n ++ s) = columns s := by
  induction n with
  | zero => rfl
  | succ n ih =>
    have hspace : spaces (n + 1) ++ s = [] ++ 32 :: (spaces n ++ s) := rfl
    rw [hspace, columns_append_space (by decide), columns_nil, ih]
    rfl

/-- The words of a line are its columns. -/
theorem columns_words (w : Word) (cells : List (ℕ × Word)) (trail : ℕ) :
    columns (w.val ++ (cells.flatMap fun w => spaces (w.1 + 1) ++ w.2.val) ++ spaces trail) =
      w.val :: cells.map fun w => w.2.val := by
  induction cells generalizing w with
  | nil =>
    cases trail with
    | zero =>
      rw [List.flatMap_nil, List.append_nil]
      exact (congrArg columns (List.append_nil _)).trans (columns_word w)
    | succ n =>
      have hspace : w.val ++ [] ++ spaces (n + 1) = w.val ++ 32 :: (spaces n ++ []) := by
        rw [List.append_nil, List.append_nil]
        rfl
      rw [List.flatMap_nil, hspace, columns_append_space (by decide), columns_spaces, columns_word, columns_nil]
      rfl
  | cons v cells ih =>
    have hspace : w.val ++ ((v :: cells).flatMap fun w => spaces (w.1 + 1) ++ w.2.val) ++ spaces trail =
        w.val ++ 32 :: (spaces v.1 ++ (v.2.val ++ (cells.flatMap fun w => spaces (w.1 + 1) ++ w.2.val) ++
          spaces trail)) := by
      simp [spaces, List.replicate_succ]
    rw [hspace, columns_append_space (by decide), columns_spaces, ih, columns_word]
    rfl

/-- A text without white space occurs in a line where it occurs in a column. -/
theorem infix_iff_columns {text : Str} (hne : text ≠ []) (h : ∀ c ∈ text, isSpace c = false) (s : Str) :
    text <:+: s ↔ ∃ w ∈ columns s, text <:+: w := by
  induction hn : s.length using Nat.strong_induction_on generalizing s with
  | _ n ih =>
    by_cases hspace : ∃ c ∈ s, isSpace c = true
    · obtain ⟨c, hmem, hc⟩ := hspace
      obtain ⟨a, b, rfl⟩ := List.append_of_mem hmem
      have hnot : c ∉ text := fun hct => absurd (hc.symm.trans (h c hct)) Bool.true_eq_false.mp
      rw [List.length_append, List.length_cons] at hn
      rw [infix_append_cons hnot, ih a.length (by omega) a rfl, ih b.length (by omega) b rfl, columns_append_space hc]
      simp only [List.mem_append, or_and_right, exists_or]
    · have hword : ∀ c ∈ s, isSpace c = false := by
        intro c hc
        by_contra hct
        exact hspace ⟨c, hc, Bool.eq_true_of_not_eq_false hct⟩
      by_cases hs : s = []
      · subst hs
        rw [columns_nil, List.infix_nil]
        exact iff_of_false hne (by simp)
      · rw [columns_word ⟨s, hs, hword⟩]
        simp

/-! ### The line of a rule -/

/-- What occurs in a number is made of digits. -/
theorem not_infix_number {text : Str} {c n : ℕ} (hc : c ∈ text) (hdigit : ¬ IsDigit c) : ¬ text <:+: natDigits n :=
  fun h => hdigit (isDigit_of_mem_natDigits (h.subset hc))

namespace RawRule

variable (r : RawRule)

theorem columns_line :
    columns r.line = natDigits r.packets :: natDigits r.bytes :: r.words.map fun w => w.2.val := by
  rw [line, columns_spaces]
  exact columns_words (numberWord r.packets) r.cells r.trail

/-- A text that is no number occurs in the line where it occurs in a word. -/
theorem infix_line {text : Str} (h : ∀ c ∈ text, isSpace c = false) (hletter : ∃ c ∈ text, ¬ IsDigit c) :
    text <:+: r.line ↔ r.Shows text := by
  obtain ⟨c, hc, hdigit⟩ := hletter
  rw [infix_iff_columns (List.ne_nil_of_mem hc) h, columns_line]
  simp only [List.mem_cons, exists_eq_or_imp, not_infix_number hc hdigit, false_or]
  constructor
  · rintro ⟨_, hmem, htext⟩
    obtain ⟨w, hw, rfl⟩ := List.mem_map.mp hmem
    exact ⟨w, hw, htext⟩
  · rintro ⟨w, hw, htext⟩
    exact ⟨_, List.mem_map.mpr ⟨w, hw, rfl⟩, htext⟩

theorem infix_needle_line (kind : PortKind) (port : ℕ) :
    needle kind port <:+: r.line ↔ r.Shows (needle kind port) := by
  have hcolon : ':'.toNat ∈ needle kind port := List.mem_append_left _ (List.mem_append_right _ List.mem_cons_self)
  exact r.infix_line (fun _ => isSpace_needle) ⟨_, hcolon, fun h => absurd h.2 (by decide)⟩

theorem infix_notrack_line : str "NOTRACK" <:+: r.line ↔ r.Shows (str "NOTRACK") :=
  r.infix_line (by decide) ⟨'N'.toNat, by decide, fun h => absurd h.2 (by decide)⟩

theorem isDigits_natDigits (n : ℕ) : isDigits (natDigits n) = true := by
  rw [isDigits, Bool.and_eq_true, List.all_eq_true]
  refine ⟨by simpa using natDigits_ne_nil n, fun c hc => ?_⟩
  rw [isDigitChar, digitValue_of_isDigit (isDigit_of_mem_natDigits hc)]
  rfl

/-- What the loop makes of the line. -/
theorem lineBytes_line (kind : PortKind) (port : ℕ) :
    lineBytes (needle kind port) r.line = if r.Hit kind port then some (natDigits r.bytes) else none := by
  have hhit : needle kind port <:+: r.line ∧ str "NOTRACK" <:+: r.line ↔ r.Hit kind port :=
    and_congr (r.infix_needle_line kind port) r.infix_notrack_line
  rw [lineBytes, columns_line]
  dsimp only
  rw [isDigits_natDigits, isDigits_natDigits]
  exact if_congr hhit rfl rfl

/-- The line is one line. -/
theorem isLineBreak_line {c : ℕ} (h : c ∈ r.line) : isLineBreak c = false := by
  have hspaces : ∀ n, c ∈ spaces n → isLineBreak c = false := by
    intro n hc
    rw [List.eq_of_mem_replicate hc]
    rfl
  have hword : ∀ w : Word, c ∈ w.val → isLineBreak c = false := fun w hc => isLineBreak_of_isSpace (w.property.2 c hc)
  unfold line at h
  rw [List.mem_append, List.mem_append, List.mem_append, List.mem_flatMap] at h
  rcases h with h | (h | ⟨w, -, h⟩) | h
  · exact hspaces _ h
  · exact hword (numberWord r.packets) h
  · exact (List.mem_append.mp h).elim (hspaces _) (hword w.2)
  · exact hspaces _ h

/-- The rules for the port are found. -/
theorem IsFor.hit {r : RawRule} {kind : PortKind} {port : ℕ} (h : r.IsFor kind port) : r.Hit kind port := by
  obtain ⟨w, hw, hport⟩ := r.shows_port kind port h.2
  obtain ⟨v, hv, htarget⟩ := r.shows_target h.1
  exact ⟨⟨w, hw, hport ▸ List.infix_rfl⟩, ⟨v, hv, htarget ▸ List.infix_rfl⟩⟩

theorem parseInt_bytes : parseInt (natDigits r.bytes) = some (r.bytes : ℤ) := by
  have hlen : (natDigits r.bytes).length ≤ maxStrDigits := by
    have hlt : r.bytes < 10 ^ 20 := Nat.lt_trans r.bytes_lt (by decide)
    rw [natDigits, List.length_map]
    exact Nat.le_trans ((Nat.length_toDigits_le_iff (by decide) (by decide)).mpr hlt) (by decide)
  exact parseInt_decimal (n := r.bytes) hlen

end RawRule

/-! ### The lookup -/

namespace Listing

variable (l : Listing) (kind : PortKind) (port : ℕ)

theorem splitlines_stdout : splitlines l.stdout = l.header ++ l.rules.map RawRule.line := by
  refine splitlines_unlines fun line hline => ?_
  rcases List.mem_append.mp hline with hline | hline
  · exact l.header_lines line hline
  · obtain ⟨r, -, rfl⟩ := List.mem_map.mp hline
    exact fun c hc => r.isLineBreak_line hc

/-- The lines before the rules are passed over. -/
theorem lineBytes_header {line : Str} (h : line ∈ l.header) : lineBytes (needle kind port) line = none := by
  rw [lineBytes, if_neg fun hboth => l.header_target line h hboth.2]

/-- **The first rule that is found is read.** -/
theorem bytesOf_eq : l.bytesOf kind port = (l.firstHit kind port).map fun r => (r.bytes : ℤ) := by
  have hrules : ∀ rules : List RawRule, ((rules.map RawRule.line).findSome? (lineBytes (needle kind port))).bind parseInt =
      (rules.find? fun r => decide (r.Hit kind port)).map fun r => (r.bytes : ℤ) := by
    intro rules
    induction rules with
    | nil => rfl
    | cons r rules ih =>
      rw [List.map_cons, List.findSome?_cons, r.lineBytes_line, List.find?_cons]
      by_cases h : r.Hit kind port
      · rw [if_pos h, decide_eq_true h]
        exact r.parseInt_bytes
      · rw [if_neg h, decide_eq_false h]
        exact ih
  have hheader : l.header.findSome? (lineBytes (needle kind port)) = none :=
    List.findSome?_eq_none_iff.mpr fun line => l.lineBytes_header kind port
  rw [bytesOf, iptablesBytes, splitlines_stdout, Option.bind_some, List.findSome?_append]
  show ((l.header.findSome? (lineBytes (needle kind port))).or
    ((l.rules.map RawRule.line).findSome? (lineBytes (needle kind port)))).bind parseInt = _
  rw [hheader, Option.none_or, hrules]
  rfl

/-- **When the lookup is exact**: no rule is found, or the first that is found is for the port, or shows
the same count as one that is. -/
theorem answers_iff :
    l.Answers kind port (l.bytesOf kind port) ↔
      ∀ r ∈ l.firstHit kind port, ∃ r' ∈ l.rules, r'.IsFor kind port ∧ r'.bytes = r.bytes := by
  rw [bytesOf_eq]
  cases hfirst : l.firstHit kind port with
  | none =>
    have hnone := List.find?_eq_none.mp hfirst
    refine iff_of_true (fun r hr hfor => hnone r hr (decide_eq_true hfor.hit)) ?_
    exact fun r hr => nomatch hr
  | some r =>
    show (∃ r' ∈ l.rules, _ ∧ (r'.bytes : ℤ) = (r.bytes : ℤ)) ↔ _
    simp only [Int.natCast_inj, Option.mem_some_iff, forall_eq']

end Listing

/-- The listing for two tunnels of a server, the one on 4430 added first. -/
def twoTunnels : Listing where
  header := [str "Chain PREROUTING (policy ACCEPT 0 packets, 0 bytes)",
    str "    pkts      bytes target     prot opt in"]
  rules := [paqetRule .dport 4430 9 900 (by decide), paqetRule .dport 443 1 100 (by decide)]
  header_lines := by decide
  header_target := by decide

/-- The counter of 4430 is returned for 443, which has its own. -/
theorem another_port_read :
    twoTunnels.bytesOf .dport 443 = some 900 ∧
      (∃ r ∈ twoTunnels.rules, r.IsFor .dport 443 ∧ r.bytes = 100) ∧
      ¬ twoTunnels.Answers .dport 443 (twoTunnels.bytesOf .dport 443) := by
  decide +kernel

/-! ### Rules without comments -/

namespace RawRule

variable (r : RawRule)

/-- The words that are not the rule's matches or its target look like neither. -/
def Plain : Prop :=
  ∀ w ∈ r.words, (∃ kind, ∃ p ∈ r.port kind, w.2.val = needle kind p) ∨
    (∀ kind : PortKind, ¬ kind.displayKind ++ str ":" <:+: w.2.val) ∧ (str "NOTRACK" <:+: w.2.val → r.notrack = true)

end RawRule

/-- A text for a port occurs in another if it is of the same kind and begins it. -/
theorem needle_infix_iff {kind kind' : PortKind} {p q : ℕ} :
    needle kind p <:+: needle kind' q ↔ kind = kind' ∧ natDigits p <+: natDigits q := by
  have hcolon : ∀ n, ':'.toNat ∉ natDigits n := fun n h => absurd (isDigit_of_mem_natDigits h).2 (by decide)
  have hkind : ∀ k : PortKind, ':'.toNat ∉ k.displayKind := by
    intro k
    cases k <;> decide
  have hshape : ∀ (k : PortKind) n, needle k n = k.displayKind ++ ':'.toNat :: natDigits n := fun k n =>
    List.append_assoc _ _ _
  constructor
  · rintro ⟨a, b, h⟩
    have hsplit : a ++ kind.displayKind ++ ':'.toNat :: (natDigits p ++ b) =
        kind'.displayKind ++ ':'.toNat :: natDigits q := by
      rw [← hshape, ← h, hshape]
      simp
    have ha : ':'.toNat ∉ a ++ kind.displayKind := by
      have hcount := congrArg (List.count ':'.toNat) hsplit
      rw [List.count_append, List.count_cons_self, List.count_append, List.count_append, List.count_append,
        List.count_cons_self, List.count_eq_zero_of_not_mem (hkind kind'),
        List.count_eq_zero_of_not_mem (hcolon q)] at hcount
      refine List.count_eq_zero.mp ?_
      rw [List.count_append]
      omega
    have hbefore := congrArg (before ':'.toNat) hsplit
    have hafter := congrArg (after ':'.toNat) hsplit
    rw [before_append ha, before_append (hkind kind')] at hbefore
    rw [after_append ha, after_append (hkind kind')] at hafter
    refine ⟨?_, b, Option.some.inj hafter⟩
    have hlen := congrArg List.length hbefore
    have hnil : a = [] := by
      rw [List.length_append] at hlen
      cases kind <;> cases kind' <;> exact List.length_eq_zero_iff.mp (Nat.add_eq_right.mp hlen)
    rw [hnil] at hbefore
    cases kind <;> cases kind' <;> first | rfl | exact absurd hbefore (by decide)
  · rintro ⟨rfl, b, h⟩
    exact ⟨[], b, by rw [hshape, hshape, ← h]; simp⟩

namespace RawRule

/-- **Which rules are found**: those whose port begins with the digits of the port. -/
theorem hit_iff_of_plain {r : RawRule} (h : r.Plain) {kind : PortKind} {port : ℕ} :
    r.Hit kind port ↔ r.notrack = true ∧ ∃ q ∈ r.port kind, natDigits port <+: natDigits q := by
  have hnot : ∀ k q, ¬ str "NOTRACK" <:+: needle k q := by
    intro k q hinfix
    have hmem : 'N'.toNat ∈ needle k q := hinfix.subset (by decide)
    rcases List.mem_append.mp hmem with hmem | hmem
    · cases k <;> exact absurd hmem (by decide)
    · exact absurd (isDigit_of_mem_natDigits hmem).2 (by decide)
  constructor
  · rintro ⟨⟨w, hw, hport⟩, v, hv, htarget⟩
    constructor
    · rcases h v hv with ⟨k, q, -, hshown⟩ | ⟨-, hn⟩
      · exact absurd (hshown ▸ htarget) (hnot k q)
      · exact hn htarget
    · rcases h w hw with ⟨k, q, hq, hshown⟩ | ⟨hno, -⟩
      · obtain ⟨rfl, hdigits⟩ := needle_infix_iff.mp (hshown ▸ hport)
        exact ⟨q, hq, hdigits⟩
      · exact absurd ((List.prefix_append _ _).isInfix.trans hport) (hno kind)
  · rintro ⟨hn, q, hq, hdigits⟩
    obtain ⟨w, hw, hshown⟩ := r.shows_port kind q hq
    obtain ⟨v, hv, htarget⟩ := r.shows_target hn
    exact ⟨⟨w, hw, hshown ▸ needle_infix_iff.mpr ⟨rfl, hdigits⟩⟩, v, hv, htarget ▸ List.infix_rfl⟩

/-- The rules of the agent are such rules. -/
theorem plain_paqetRule (kind : PortKind) (corePort packets bytes : ℕ) (h : bytes < 2 ^ 64) :
    (paqetRule kind corePort packets bytes h).Plain := by
  intro w hw
  have hlast : w = (0, portWord kind corePort) ∨
      (∀ k : PortKind, ¬ k.displayKind ++ str ":" <:+: w.2.val) := by
    simp only [paqetRule, List.mem_cons, List.not_mem_nil, or_false] at hw
    rcases hw with rfl | rfl | rfl | rfl | rfl | rfl | rfl | rfl | rfl
    all_goals first | exact .inl rfl | exact .inr fun k => by cases k <;> decide
  rcases hlast with rfl | hno
  · exact .inl ⟨kind, corePort, if_pos rfl, rfl⟩
  · exact .inr ⟨hno, fun _ => rfl⟩

end RawRule

/-- The first rule whose port, of this kind, begins with the digits of the port. -/
def Listing.firstBegun (l : Listing) (kind : PortKind) (port : ℕ) : Option RawRule :=
  l.rules.find? fun r => decide (r.notrack = true ∧ ∃ q ∈ r.port kind, natDigits port <+: natDigits q)

/-- **When the lookup is exact, in ports**: where no comment gets in the way, the first `NOTRACK` rule whose port
begins with the digits of the port is for the port, or shows the same count as one that is. -/
theorem Listing.answers_iff_of_plain {l : Listing} (h : ∀ r ∈ l.rules, r.Plain) (kind : PortKind) (port : ℕ) :
    l.Answers kind port (l.bytesOf kind port) ↔
      ∀ r ∈ l.firstBegun kind port, ∃ r' ∈ l.rules, r'.IsFor kind port ∧ r'.bytes = r.bytes := by
  have hfirst : l.firstHit kind port = l.firstBegun kind port :=
    List.find?_congr fun r hr => decide_eq_decide.mpr (RawRule.hit_iff_of_plain (h r hr))
  rw [answers_iff, hfirst]

/-- So it is where all rules are the agent's own. -/
theorem Listing.answers_iff_of_paqetRules {l : Listing} (h : ∀ r ∈ l.rules, ∃ k p n b hb, r = paqetRule k p n b hb)
    (kind : PortKind) (port : ℕ) :
    l.Answers kind port (l.bytesOf kind port) ↔
      ∀ r ∈ l.firstBegun kind port, ∃ r' ∈ l.rules, r'.IsFor kind port ∧ r'.bytes = r.bytes := by
  refine Listing.answers_iff_of_plain (fun r hr => ?_) kind port
  obtain ⟨k, p, n, b, hb, rfl⟩ := h r hr
  exact RawRule.plain_paqetRule k p n b hb

end Hawal.Agent.RawCounter
