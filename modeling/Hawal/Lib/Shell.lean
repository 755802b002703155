import Hawal.Lib.Python

/-!
# Commands of bash

`readCommands` reads the next commands of a script: assignments and plain commands, whose words are made
of ordinary characters and of text between double quotes. A text in which something would be substituted,
or with anything else of the shell in it, is not read.

* `readWords` — the words of a line; between double quotes the dollar sign, the backquote, the backslash
  and the double quote are special.
* `expandHere` — the body of a here-document whose delimiter is not quoted.
* `readWords_double` — text without quotes and backslashes, between double quotes: it is read as it is, or
  something in it would be substituted (`literal`).
-/

namespace Hawal.Lib.Shell

open Hawal.Lib.Python

/-! ### Words -/

/-- What the names of variables are made of. -/
def isNameChar (c : ℕ) : Bool := (48 ≤ c && c ≤ 57) || (65 ≤ c && c ≤ 90) || c == 95 || (97 ≤ c && c ≤ 122)

/-- What begins an expansion after a dollar sign: a name, a digit, a bracket of any kind, or one of the
special parameters. -/
def expands (c : ℕ) : Bool := isNameChar c || decide (c ∈ str "\x7b([") || decide (c ∈ str "*@#?-$!")

/-- An expansion begins here, after a dollar sign. -/
def expandsAt : Str → Bool
  | [] => false
  | c :: _ => expands c

/-- A character begins a substitution, before this text. -/
def substitutes (c : ℕ) (s : Str) : Bool := c == 96 || (c == 36 && expandsAt s)

/-- What loses its meaning after a backslash between double quotes, with the backslash. -/
def isEscapable (c : ℕ) : Bool := c == 36 || c == 96 || c == 34 || c == 92

/-- A character that is neither special nor white space. -/
def isBare (c : ℕ) : Bool := isNameChar c || decide (c ∈ str "-+=./:,%@")

/-- Where the reader is in a line. -/
inductive Place where
  /-- Between words. -/
  | between
  /-- In a word. -/
  | word
  /-- Between double quotes. -/
  | double
  /-- There, after a backslash. -/
  | escaped

/-- More in front of the first word. -/
def prepend (s : Str) : List Str → List Str
  | [] => [s]
  | w :: ws => (s ++ w) :: ws

/-- The words up to the end of the line, the first of which is the rest of the one that the reader is in;
and the text after the line. -/
def readWords : Place → Str → Option (List Str × Str)
  | .between, [] => some ([], [])
  | .word, [] => some ([[]], [])
  | .double, [] => none
  | .escaped, [] => none
  | .between, c :: s =>
    if c = 10 then some ([], s)
    else if c = 32 ∨ c = 9 then readWords .between s
    else if c = 34 then readWords .double s
    else if isBare c then (readWords .word s).map fun r => (prepend [c] r.1, r.2)
    else none
  | .word, c :: s =>
    if c = 10 then some ([[]], s)
    else if c = 32 ∨ c = 9 then (readWords .between s).map fun r => ([] :: r.1, r.2)
    else if c = 34 then readWords .double s
    else if isBare c then (readWords .word s).map fun r => (prepend [c] r.1, r.2)
    else none
  | .double, c :: s =>
    if c = 34 then readWords .word s
    else if c = 92 then readWords .escaped s
    else if substitutes c s then none
    else (readWords .double s).map fun r => (prepend [c] r.1, r.2)
  | .escaped, c :: s =>
    if c = 10 then readWords .double s
    else (readWords .double s).map fun r => (prepend (if isEscapable c then [c] else [92, c]) r.1, r.2)

/-- Nothing is substituted in the text: there is no backquote, and no dollar sign before what begins an
expansion. -/
def literal : Str → Bool
  | [] => true
  | c :: s => !substitutes c s && literal s

/-- There is no double quote and no backslash in the text. -/
def Unquoted (s : Str) : Prop := ∀ c ∈ s, c ≠ 34 ∧ c ≠ 92

instance (s : Str) : Decidable (Unquoted s) := inferInstanceAs (Decidable (∀ c ∈ s, c ≠ 34 ∧ c ≠ 92))

theorem substitutes_append_quote (c : ℕ) (s tail : Str) : substitutes c (s ++ 34 :: tail) = substitutes c s := by
  cases s with
  | nil =>
    have hquote : expands 34 = false := by decide
    rw [List.nil_append, substitutes, substitutes, expandsAt, expandsAt, hquote]
  | cons d s => rfl

/-- **Text between double quotes**, at the end of a line. -/
theorem readWords_double {v : Str} (h : Unquoted v) (rest : Str) :
    readWords .double (v ++ 34 :: 10 :: rest) = if literal v then some ([v], rest) else none := by
  induction v with
  | nil => rfl
  | cons c v ih =>
    rw [Unquoted, List.forall_mem_cons] at h
    rw [List.cons_append, readWords, if_neg h.1.1, if_neg h.1.2, substitutes_append_quote, ih h.2, literal]
    cases substitutes c v with
    | true => rfl
    | false => cases literal v <;> rfl

/-- Texts next to each other, unless a dollar sign comes before what begins an expansion. -/
theorem literal_append {s t : Str} (h : expandsAt t = true → s.getLast? ≠ some 36) :
    literal (s ++ t) = (literal s && literal t) := by
  induction s with
  | nil => rfl
  | cons c s ih =>
    cases s with
    | nil =>
      have hsub : substitutes c t = substitutes c [] := by
        rw [substitutes, substitutes]
        cases hexp : expandsAt t with
        | false => rfl
        | true =>
          have hc : c ≠ 36 := fun hc => h hexp (congrArg some hc)
          rw [beq_eq_false_iff_ne.mpr hc]
          rfl
      rw [List.singleton_append, literal, literal, literal, hsub, Bool.and_true]
    | cons d s =>
      rw [List.getLast?_cons_cons] at h
      have hsub : substitutes c (d :: s ++ t) = substitutes c (d :: s) := rfl
      rw [List.cons_append, literal, hsub, ih h, ← Bool.and_assoc, ← literal]

/-! ### Commands -/

/-- The commands that are read. -/
inductive Command where
  /-- `name=value`. -/
  | assign (name value : Str)
  /-- A command and its arguments. -/
  | run (words : List Str)
  deriving DecidableEq

/-- The name and what comes after the equals sign, when the line is an assignment. -/
def assigned (s : Str) : Option (Str × Str) :=
  match s.dropWhile isNameChar with
  | 61 :: rest =>
    let name := s.takeWhile isNameChar
    if name.head?.any (fun c => !(48 ≤ c && c ≤ 57)) then some (name, rest) else none
  | _ => none

/-- The command on a line, and the text after the line. -/
def readCommand (s : Str) : Option (Command × Str) :=
  match assigned s with
  | some a =>
    (readWords .word a.2).bind fun r =>
      match r.1 with
      | [value] => some (.assign a.1 value, r.2)
      | _ => none
  | none => (readWords .between s).map fun r => (.run r.1, r.2)

/-- Without empty lines and comments at the front; the flag says that the reader is in a comment. -/
def skip : Bool → Str → Str
  | _, [] => []
  | true, c :: s => skip (c != 10) s
  | false, c :: s => if c = 10 ∨ c = 32 ∨ c = 9 then skip false s else if c = 35 then skip true s else c :: s

/-- The next `n` commands, and the text after them. -/
def readCommands : ℕ → Str → Option (List Command × Str)
  | 0, s => some ([], s)
  | n + 1, s =>
    (readCommand (skip false s)).bind fun r => (readCommands n r.2).map fun r' => (r.1 :: r'.1, r'.2)

/-- The variables after a command; what is run sets none. -/
def Command.set (env : Str → Str) : Command → Str → Str
  | .assign name value, x => if x = name then value else env x
  | .run _, x => env x

/-- The variables after commands; one that is not set is empty. -/
def environment (cs : List Command) : Str → Str := cs.foldl Command.set fun _ => []

/-! ### Lines -/

/-- A word, and text between double quotes. -/
def quotedLine (word v : Str) : Str := word ++ 32 :: 34 :: (v ++ [34])

/-- A name, an equals sign, and text between double quotes. -/
def assignLine (name v : Str) : Str := name ++ 61 :: 34 :: (v ++ [34])

theorem of_isNameChar {c : ℕ} (h : isNameChar c = true) : c ≠ 10 ∧ ¬ (c = 32 ∨ c = 9) ∧ c ≠ 34 ∧ c ≠ 35 := by
  refine ⟨?_, ?_, ?_, ?_⟩
  · rintro rfl
    exact absurd h (by decide)
  · rintro (rfl | rfl) <;> exact absurd h (by decide)
  · rintro rfl
    exact absurd h (by decide)
  · rintro rfl
    exact absurd h (by decide)

/-- A word of ordinary characters, up to a space. -/
theorem readWords_word {w : Str} (h : ∀ c ∈ w, isNameChar c = true) (s : Str) :
    readWords .word (w ++ 32 :: s) = (readWords .between s).map fun r => (w :: r.1, r.2) := by
  induction w with
  | nil => rfl
  | cons c w ih =>
    rw [List.forall_mem_cons] at h
    obtain ⟨hline, hspace, hquote, -⟩ := of_isNameChar h.1
    have hbare : isBare c = true := by rw [isBare, h.1]; rfl
    rw [List.cons_append, readWords, if_neg hline, if_neg hspace, if_neg hquote, if_pos hbare, ih h.2, Option.map_map]
    rfl

theorem readWords_between {w : Str} (hne : w ≠ []) (h : ∀ c ∈ w, isNameChar c = true) (s : Str) :
    readWords .between (w ++ 32 :: s) = (readWords .between s).map fun r => (w :: r.1, r.2) := by
  cases w with
  | nil => exact absurd rfl hne
  | cons c w =>
    rw [List.forall_mem_cons] at h
    obtain ⟨hline, hspace, hquote, -⟩ := of_isNameChar h.1
    have hbare : isBare c = true := by rw [isBare, h.1]; rfl
    rw [List.cons_append, readWords, if_neg hline, if_neg hspace, if_neg hquote, if_pos hbare, readWords_word h.2,
      Option.map_map]
    rfl

/-- A command whose last word is text between double quotes. -/
theorem readCommand_quoted {word v : Str} (hne : word ≠ []) (hword : ∀ c ∈ word, isNameChar c = true)
    (hv : Unquoted v) (rest : Str) :
    readCommand (word ++ 32 :: 34 :: (v ++ 34 :: 10 :: rest)) =
      if literal v then some (.run [word, v], rest) else none := by
  have hstop : ¬ isNameChar 32 = true := by decide
  have hassigned : assigned (word ++ 32 :: 34 :: (v ++ 34 :: 10 :: rest)) = none := by
    rw [assigned, List.dropWhile_append_of_pos hword, List.dropWhile_cons_of_neg hstop]
    rfl
  have hdouble : readWords .between (34 :: (v ++ 34 :: 10 :: rest)) = readWords .double (v ++ 34 :: 10 :: rest) := rfl
  rw [readCommand, hassigned]
  show (readWords .between (word ++ 32 :: 34 :: (v ++ 34 :: 10 :: rest))).map _ = _
  rw [readWords_between hne hword, hdouble, readWords_double hv]
  cases literal v <;> rfl

/-- An assignment of text between double quotes. -/
theorem readCommand_assign {name v : Str} (hname : name.head?.any (fun c => !(48 ≤ c && c ≤ 57)) = true)
    (hchars : ∀ c ∈ name, isNameChar c = true) (hv : Unquoted v) (rest : Str) :
    readCommand (name ++ 61 :: 34 :: (v ++ 34 :: 10 :: rest)) =
      if literal v then some (.assign name v, rest) else none := by
  have hstop : ¬ isNameChar 61 = true := by decide
  have hassigned : assigned (name ++ 61 :: 34 :: (v ++ 34 :: 10 :: rest)) =
      some (name, 34 :: (v ++ 34 :: 10 :: rest)) := by
    rw [assigned, List.dropWhile_append_of_pos hchars, List.dropWhile_cons_of_neg hstop,
      List.takeWhile_append_of_pos hchars, List.takeWhile_cons_of_neg hstop, List.append_nil]
    exact if_pos hname
  have hwords : readWords .word (34 :: (v ++ 34 :: 10 :: rest)) = readWords .double (v ++ 34 :: 10 :: rest) := rfl
  rw [readCommand, hassigned]
  show (readWords .word (34 :: (v ++ 34 :: 10 :: rest))).bind _ = _
  rw [hwords, readWords_double hv]
  cases literal v <;> rfl

theorem skip_append {w : Str} (hne : w ≠ []) (h : ∀ c ∈ w, isNameChar c = true) (s : Str) :
    skip false (w ++ s) = w ++ s := by
  cases w with
  | nil => exact absurd rfl hne
  | cons c w =>
    obtain ⟨hline, hspace, -, hcomment⟩ := of_isNameChar (h c List.mem_cons_self)
    rw [List.cons_append, skip, if_neg (not_or.mpr ⟨hline, hspace⟩), if_neg hcomment]

/-- A comment at the front. -/
theorem skip_comment {c : Str} (h : 10 ∉ c) (s : Str) : skip false (35 :: c ++ 10 :: s) = skip false s := by
  have hskip : ∀ {c : Str}, 10 ∉ c → skip true (c ++ 10 :: s) = skip false s := by
    intro c
    induction c with
    | nil => exact fun _ => rfl
    | cons d c ih =>
      intro h
      rw [List.mem_cons, not_or] at h
      rw [List.cons_append, skip, bne_iff_ne.mpr (Ne.symm h.1), ih h.2]
  exact hskip h

/-- A plain command next, and the others. -/
theorem readCommands_run {word v : Str} (hne : word ≠ []) (hword : ∀ c ∈ word, isNameChar c = true)
    (hv : Unquoted v) (n : ℕ) (rest : Str) :
    readCommands (n + 1) (quotedLine word v ++ 10 :: rest) =
      if literal v then (readCommands n rest).map fun r => (.run [word, v] :: r.1, r.2) else none := by
  have htext : quotedLine word v ++ 10 :: rest = word ++ 32 :: 34 :: (v ++ 34 :: 10 :: rest) := by
    simp only [quotedLine, List.append_assoc, List.cons_append, List.nil_append]
  rw [htext, readCommands, skip_append hne hword, readCommand_quoted hne hword hv]
  cases literal v <;> rfl

/-- An assignment next, and the others. -/
theorem readCommands_assign {name v : Str} (hname : name.head?.any (fun c => !(48 ≤ c && c ≤ 57)) = true)
    (hchars : ∀ c ∈ name, isNameChar c = true) (hv : Unquoted v) (n : ℕ) (rest : Str) :
    readCommands (n + 1) (assignLine name v ++ 10 :: rest) =
      if literal v then (readCommands n rest).map fun r => (.assign name v :: r.1, r.2) else none := by
  have htext : assignLine name v ++ 10 :: rest = name ++ 61 :: 34 :: (v ++ 34 :: 10 :: rest) := by
    simp only [assignLine, List.append_assoc, List.cons_append, List.nil_append]
  have hne : name ≠ [] := by
    rintro rfl
    cases hname
  rw [htext, readCommands, skip_append hne hchars, readCommand_assign hname hchars hv]
  cases literal v <;> rfl

/-! ### Here-documents -/

/-- The lines between the line of the command and the delimiter. -/
def hereDocument (command delimiter : Str) (ls : List Str) : List Str :=
  ((ls.dropWhile (· ≠ command)).drop 1).takeWhile (· ≠ delimiter)

/-- Where the reader is in the body of a here-document. -/
inductive Spot where
  | text
  /-- After a dollar sign that begins an expansion. -/
  | dollar
  /-- In braces, with the name so far. -/
  | braces (name : Str)

/-- The body of a here-document, where the delimiter is not quoted: variables in braces are replaced, and a
body with another expansion or a backslash is not read. -/
def expandHere (env : Str → Str) : Spot → Str → Option Str
  | .text, [] => some []
  | .dollar, [] => none
  | .braces _, [] => none
  | .text, c :: s =>
    if c = 92 ∨ c = 96 then none
    else if c = 36 ∧ expandsAt s = true then expandHere env .dollar s
    else (expandHere env .text s).map fun t => c :: t
  | .dollar, c :: s => if c = 123 then expandHere env (.braces []) s else none
  | .braces name, c :: s =>
    if c = 125 then if name = [] then none else (expandHere env .text s).map fun t => env name ++ t
    else if isNameChar c then expandHere env (.braces (name ++ [c])) s
    else none

/-- Text without special characters stays as it is. -/
theorem expandHere_text (env : Str → Str) {t : Str} (h : ∀ c ∈ t, c ≠ 92 ∧ c ≠ 96 ∧ c ≠ 36) (s : Str) :
    expandHere env .text (t ++ s) = (expandHere env .text s).map fun r => t ++ r := by
  induction t with
  | nil =>
    show expandHere env .text s = (expandHere env .text s).map fun r => r
    rw [Option.map_id']
  | cons c t ih =>
    rw [List.forall_mem_cons] at h
    rw [List.cons_append, expandHere, if_neg (not_or.mpr ⟨h.1.1, h.1.2.1⟩), if_neg fun hc => h.1.2.2 hc.1, ih h.2,
      Option.map_map]
    rfl

theorem expandHere_braces (env : Str → Str) {name : Str} (h : ∀ c ∈ name, isNameChar c = true) (s : Str) :
    ∀ front : Str, front ++ name ≠ [] → expandHere env (.braces front) (name ++ 125 :: s) =
      (expandHere env .text s).map fun r => env (front ++ name) ++ r := by
  induction name with
  | nil =>
    intro front hne
    rw [List.append_nil] at hne ⊢
    rw [List.nil_append, expandHere, if_pos rfl, if_neg hne]
  | cons c name ih =>
    intro front hne
    rw [List.forall_mem_cons] at h
    have hclose : c ≠ 125 := by
      rintro rfl
      exact absurd h.1 (by decide)
    have hfront : front ++ c :: name = front ++ [c] ++ name := by rw [List.append_assoc]; rfl
    rw [List.cons_append, expandHere, if_neg hclose, if_pos h.1, ih h.2 (front ++ [c]) (hfront ▸ hne), hfront]

/-- A variable in braces is replaced by its value. -/
theorem expandHere_variable (env : Str → Str) {name : Str} (hne : name ≠ [])
    (h : ∀ c ∈ name, isNameChar c = true) (s : Str) :
    expandHere env .text (36 :: 123 :: (name ++ 125 :: s)) = (expandHere env .text s).map fun r => env name ++ r := by
  have hbrace : expandsAt (123 :: (name ++ 125 :: s)) = true := (by decide : expands 123 = true)
  rw [expandHere, if_neg (by decide), if_pos ⟨rfl, hbrace⟩, expandHere, if_pos rfl, expandHere_braces env h s [] hne,
    List.nil_append]

end Hawal.Lib.Shell
