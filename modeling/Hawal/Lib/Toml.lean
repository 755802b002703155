import Hawal.Lib.JsonText

/-!
# TOML, as far as keys hold strings, arrays, integers and booleans

`Toml.read` reads tables and keys with bare names, basic strings with their escapes, arrays over any
number of lines, integers, booleans and comments. A document with anything else in it (other strings,
other numbers, dates, inline tables, dotted or quoted keys) is not read, and neither is one that has a
table or a key twice.

A text is cut into tokens first (`lex`), which are then put together one after the other (`parse`).
Whatever is read later, a value that was entered stays (`parseRun_entries`), and so do the first
values of an array that is still open (`Begun`).
-/

namespace Hawal.Lib.Toml

open Hawal.Lib.Python

/-! ### Basic strings -/

/-- The characters that stand for themselves in a basic string. -/
def isBasicChar (c : ℕ) : Bool :=
  (c == 9 || 32 ≤ c) && c != 34 && c != 92 && c != 127 && !(0xD800 ≤ c && c < 0xE000)

/-- Such characters only: no quotation mark, no backslash, no control character but the tab. -/
def Basic (s : Str) : Prop := ∀ c ∈ s, isBasicChar c = true

instance (s : Str) : Decidable (Basic s) := inferInstanceAs (Decidable (∀ c ∈ s, isBasicChar c = true))

/-- A character of Unicode. -/
def isScalar (n : ℕ) : Bool := n < 0xD800 || (0xE000 ≤ n && n < 0x110000)

/-- What a character after a backslash stands for. -/
def escapeValue (c : ℕ) : Option ℕ :=
  if c = 34 ∨ c = 92 then some c
  else if c = 98 then some 8
  else if c = 116 then some 9
  else if c = 110 then some 10
  else if c = 102 then some 12
  else if c = 114 then some 13
  else none

/-- As many digits of base sixteen, after `n`. -/
def readHex : ℕ → ℕ → Str → Option (ℕ × Str)
  | 0, n, s => if isScalar n then some (n, s) else none
  | _ + 1, _, [] => none
  | k + 1, n, c :: s => (hexValue c).bind fun v => readHex k (n * 16 + v) s

/-- What comes after a backslash: the character that is meant, and the rest. -/
def readEscape : Str → Option (ℕ × Str)
  | [] => none
  | c :: s =>
    if c = 117 then readHex 4 0 s
    else if c = 85 then readHex 8 0 s
    else (escapeValue c).map fun d => (d, s)

theorem length_of_readHex {s rest : Str} {m : ℕ} :
    ∀ {k n : ℕ}, readHex k n s = some (m, rest) → rest.length ≤ s.length := by
  induction s with
  | nil =>
    intro k n h
    cases k with
    | zero =>
      simp only [readHex, Option.ite_none_right_eq_some, Option.some.injEq, Prod.mk.injEq] at h
      exact h.2.2 ▸ le_rfl
    | succ k => cases h
  | cons c s ih =>
    intro k n h
    cases k with
    | zero =>
      simp only [readHex, Option.ite_none_right_eq_some, Option.some.injEq, Prod.mk.injEq] at h
      exact h.2.2 ▸ le_rfl
    | succ k =>
      rw [readHex, Option.bind_eq_some_iff] at h
      obtain ⟨v, -, h⟩ := h
      exact (ih h).trans (Nat.le_succ _)

theorem length_of_readEscape {s rest : Str} {d : ℕ} (h : readEscape s = some (d, rest)) :
    rest.length < s.length := by
  cases s with
  | nil => cases h
  | cons c s =>
    rw [readEscape] at h
    split_ifs at h
    · exact Nat.lt_succ_of_le (length_of_readHex h)
    · exact Nat.lt_succ_of_le (length_of_readHex h)
    · obtain ⟨d', -, h⟩ := Option.map_eq_some_iff.mp h
      cases h
      exact Nat.lt_succ_self _

/-- A basic string after its first quotation mark, and the rest. -/
def readBasic : Str → Option (Str × Str)
  | [] => none
  | c :: s =>
    if c = 34 then some ([], s)
    else if c = 92 then
      match _h : readEscape s with
      | none => none
      | some r => (readBasic r.2).map fun q => (r.1 :: q.1, q.2)
    else if isBasicChar c then (readBasic s).map fun q => (c :: q.1, q.2)
    else none
termination_by s => s.length
decreasing_by
  · exact Nat.lt_succ_of_lt (length_of_readEscape _h)
  · exact Nat.lt_succ_self _

/-- How a basic string is read. -/
inductive ReadsBasic : Str → Str → Str → Prop where
  | quote (s : Str) : ReadsBasic (34 :: s) [] s
  | escape {s s' v rest : Str} {d : ℕ} (h : readEscape s = some (d, s')) :
    ReadsBasic s' v rest → ReadsBasic (92 :: s) (d :: v) rest
  | char {s v rest : Str} {c : ℕ} (h : isBasicChar c = true) : ReadsBasic s v rest → ReadsBasic (c :: s) (c :: v) rest

theorem readsBasic_of_readBasic {s : Str} : ∀ {v rest : Str}, readBasic s = some (v, rest) → ReadsBasic s v rest := by
  induction s using readBasic.induct with
  | case1 =>
    intro v rest h
    rw [readBasic] at h
    cases h
  | case2 s =>
    intro v rest h
    rw [readBasic, if_pos rfl] at h
    cases h
    exact .quote s
  | case3 s hnone hc =>
    intro v rest h
    rw [readBasic, if_neg hc, if_pos rfl] at h
    split at h
    · cases h
    · rename_i r hr
      rw [hnone] at hr
      cases hr
  | case4 s r hr hc ih =>
    intro v rest h
    rw [readBasic, if_neg hc, if_pos rfl] at h
    split at h
    · cases h
    · rename_i r' hr'
      rw [hr, Option.some.injEq] at hr'
      subst hr'
      obtain ⟨q, hq, h⟩ := Option.map_eq_some_iff.mp h
      cases h
      exact .escape hr (ih hq)
  | case5 c s hc hc' hbasic ih =>
    intro v rest h
    rw [readBasic, if_neg hc, if_neg hc', if_pos hbasic] at h
    obtain ⟨q, hq, h⟩ := Option.map_eq_some_iff.mp h
    cases h
    exact .char hbasic (ih hq)
  | case6 c s hc hc' hbasic =>
    intro v rest h
    rw [readBasic, if_neg hc, if_neg hc', if_neg hbasic] at h
    cases h

theorem ReadsBasic.length_lt {s v rest : Str} (h : ReadsBasic s v rest) : rest.length < s.length := by
  induction h with
  | quote s => exact Nat.lt_succ_self _
  | escape h _ ih => exact ih.trans (Nat.lt_succ_of_lt (length_of_readEscape h))
  | char _ _ ih => exact Nat.lt_succ_of_lt ih

/-- Basic text is read as it is. -/
theorem readBasic_of_basic {v : Str} (h : Basic v) (rest : Str) : readBasic (v ++ 34 :: rest) = some (v, rest) := by
  induction v with
  | nil => rw [List.nil_append, readBasic, if_pos rfl]
  | cons c v ih =>
    have hc : isBasicChar c = true := h c List.mem_cons_self
    have hquote : c ≠ 34 := by
      rintro rfl
      exact absurd hc (by decide)
    have hslash : c ≠ 92 := by
      rintro rfl
      exact absurd hc (by decide)
    rw [List.cons_append, readBasic, if_neg hquote, if_neg hslash, if_pos hc,
      ih fun d hd => h d (List.mem_cons_of_mem _ hd)]
    rfl

/-! ### Text that was put between quotation marks -/

/-- The line ends without another quotation mark, and without an escape. -/
def EndsLine (s : Str) : Prop := ∃ u t, s = u ++ 10 :: t ∧ 34 ∉ u ∧ 92 ∉ u

theorem EndsLine.not_readsBasic {s v rest : Str} (h : EndsLine s) : ¬ ReadsBasic s v rest := by
  obtain ⟨u, t, rfl, hquote, hslash⟩ := h
  induction u generalizing v with
  | nil =>
    intro hreads
    cases hreads with
    | char hc _ => exact absurd hc (by decide)
  | cons c u ih =>
    intro hreads
    rw [List.mem_cons, not_or] at hquote hslash
    cases hreads with
    | quote _ => exact hquote.1 rfl
    | escape _ _ => exact hslash.1 rfl
    | char _ hreads => exact ih hquote.2 hslash.2 hreads

/-- The digits of an escape are before the next quotation mark. -/
theorem readHex_append {v tail rest : Str} {m : ℕ} :
    ∀ {k n : ℕ}, readHex k n (v ++ 34 :: tail) = some (m, rest) →
      ∃ v', rest = v' ++ 34 :: tail ∧ v'.length ≤ v.length := by
  induction v with
  | nil =>
    intro k n h
    cases k with
    | zero =>
      simp only [readHex, Option.ite_none_right_eq_some, Option.some.injEq, Prod.mk.injEq] at h
      exact ⟨[], h.2.2.symm, le_rfl⟩
    | succ k =>
      have hquote : hexValue 34 = none := by decide
      rw [List.nil_append, readHex, hquote] at h
      cases h
  | cons c v ih =>
    intro k n h
    cases k with
    | zero =>
      simp only [readHex, Option.ite_none_right_eq_some, Option.some.injEq, Prod.mk.injEq] at h
      exact ⟨c :: v, h.2.2.symm, le_rfl⟩
    | succ k =>
      rw [List.cons_append, readHex, Option.bind_eq_some_iff] at h
      obtain ⟨d, -, h⟩ := h
      obtain ⟨v', hrest, hlen⟩ := ih h
      exact ⟨v', hrest, hlen.trans (Nat.le_succ _)⟩

/-- An escape takes the next quotation mark only when it is all that comes before it. -/
theorem readEscape_append {v tail rest : Str} {d : ℕ} (h : readEscape (v ++ 34 :: tail) = some (d, rest)) :
    (∃ v', rest = v' ++ 34 :: tail ∧ v'.length < v.length) ∨ (v = [] ∧ rest = tail) := by
  cases v with
  | nil =>
    have hquote : escapeValue 34 = some 34 := by decide
    rw [List.nil_append, readEscape, if_neg (by decide), if_neg (by decide), hquote] at h
    cases h
    exact .inr ⟨rfl, rfl⟩
  | cons c v =>
    rw [List.cons_append, readEscape] at h
    split_ifs at h
    · obtain ⟨v', hrest, hlen⟩ := readHex_append h
      exact .inl ⟨v', hrest, Nat.lt_succ_of_le hlen⟩
    · obtain ⟨v', hrest, hlen⟩ := readHex_append h
      exact .inl ⟨v', hrest, Nat.lt_succ_of_le hlen⟩
    · obtain ⟨d', -, h⟩ := Option.map_eq_some_iff.mp h
      cases h
      exact .inl ⟨v, rfl, Nat.lt_succ_self _⟩

/-- **What is read of text between quotation marks**: the text when it is basic, and otherwise something
shorter. -/
theorem ReadsBasic.eq_or_shorter {v tail s rest : Str} (hend : EndsLine tail)
    (h : ReadsBasic (v ++ 34 :: tail) s rest) : (Basic v ∧ s = v ∧ rest = tail) ∨ s.length < v.length := by
  generalize hx : v ++ 34 :: tail = x at h
  induction h generalizing v with
  | quote _ =>
    cases v with
    | nil =>
      cases hx
      exact .inl ⟨List.forall_mem_nil _, rfl, rfl⟩
    | cons _ _ => exact .inr (Nat.succ_pos _)
  | escape hesc hreads ih =>
    cases v with
    | nil => cases hx
    | cons c v =>
      rw [List.cons_append, List.cons.injEq] at hx
      obtain ⟨rfl, rfl⟩ := hx
      rcases readEscape_append hesc with ⟨v', rfl, hlen⟩ | ⟨-, rfl⟩
      · -- an escape is longer than what it stands for
        refine .inr (Nat.succ_lt_succ ?_)
        rcases ih rfl with ⟨-, rfl, -⟩ | hshort
        · exact hlen
        · exact hshort.trans hlen
      · exact absurd hreads hend.not_readsBasic
  | char hc _ ih =>
    cases v with
    | nil =>
      cases hx
      exact absurd hc (by decide)
    | cons c v =>
      rw [List.cons_append, List.cons.injEq] at hx
      obtain ⟨rfl, hx⟩ := hx
      rcases ih hx with ⟨hbasic, rfl, hrest⟩ | hshort
      · exact .inl ⟨List.forall_mem_cons.mpr ⟨hc, hbasic⟩, rfl, hrest⟩
      · exact .inr (Nat.succ_lt_succ hshort)

/-! ### Tokens -/

/-- The tokens of TOML. -/
inductive Token where
  | newline
  | lbracket
  | rbracket
  | equals
  | comma
  /-- A basic string. -/
  | string (s : Str)
  /-- A name, a number or another word. -/
  | word (w : Str)

/-- What names are made of. -/
def isBareChar (c : ℕ) : Bool :=
  isDecimal c || (65 ≤ c && c ≤ 90) || (97 ≤ c && c ≤ 122) || c == 45 || c == 95

/-- What words are made of. -/
def inWord (c : ℕ) : Bool := isBareChar c || c == 43 || c == 46 || c == 58

/-- What a comment is made of. -/
def inComment (c : ℕ) : Bool := isBasicChar c || c == 34 || c == 92

/-- The tokens of one character, and those of white space. -/
def mark (c : ℕ) : Option (List Token) :=
  if c = 32 ∨ c = 9 then some []
  else if c = 10 then some [.newline]
  else if c = 91 then some [.lbracket]
  else if c = 93 then some [.rbracket]
  else if c = 61 then some [.equals]
  else if c = 44 then some [.comma]
  else none

/-- The tokens of a text. -/
def lex : Str → Option (List Token)
  | [] => some []
  | c :: s =>
    if c = 34 then
      match _h : readBasic s with
      | none => none
      | some r => (lex r.2).map fun ts => .string r.1 :: ts
    else if inWord c then (lex (s.dropWhile inWord)).map fun ts => .word (c :: s.takeWhile inWord) :: ts
    else if c = 35 then lex (s.dropWhile inComment)
    else if c = 13 then if s.head? = some 10 then lex s else none
    else (mark c).bind fun m => (lex s).map fun ts => m ++ ts
termination_by s => s.length
decreasing_by
  · exact Nat.lt_succ_of_lt (readsBasic_of_readBasic _h).length_lt
  · exact Nat.lt_succ_of_le (List.length_dropWhile_le _ _)
  · exact Nat.lt_succ_of_le (List.length_dropWhile_le _ _)
  · exact Nat.lt_succ_self _
  · exact Nat.lt_succ_self _

/-- The text is read as these tokens, whatever comes after it. -/
def Lexes (s : Str) (ts : List Token) : Prop := ∀ rest, lex (s ++ rest) = (lex rest).map fun ts' => ts ++ ts'

theorem Lexes.append {s s' : Str} {ts ts' : List Token} (h : Lexes s ts) (h' : Lexes s' ts') :
    Lexes (s ++ s') (ts ++ ts') := by
  intro rest
  rw [List.append_assoc, h, h', Option.map_map]
  simp only [Function.comp_def, List.append_assoc]

theorem Lexes.flatMap {α : Type*} {xs : List α} {f : α → Str} {g : α → List Token}
    (h : ∀ x ∈ xs, Lexes (f x) (g x)) : Lexes (xs.flatMap f) (xs.flatMap g) := by
  induction xs with
  | nil =>
    intro rest
    show lex rest = (lex rest).map fun ts' => ts'
    rw [Option.map_id']
  | cons x xs ih =>
    rw [List.flatMap_cons, List.flatMap_cons]
    exact (h x List.mem_cons_self).append (ih fun y hy => h y (List.mem_cons_of_mem _ hy))

theorem Lexes.lex_eq {s : Str} {ts : List Token} (h : Lexes s ts) : lex s = some ts := by
  have hall := h []
  rw [List.append_nil, lex] at hall
  simpa using hall

/-- Marks are not in words, and begin nothing. -/
theorem of_mark {c : ℕ} {m : List Token} (h : mark c = some m) : c ≠ 34 ∧ inWord c = false ∧ c ≠ 35 ∧ c ≠ 13 := by
  unfold mark at h
  split_ifs at h with h1 h2 h3 h4 h5 h6
  · rcases h1 with rfl | rfl <;> decide
  all_goals subst c; decide

theorem lexes_mark {c : ℕ} {m : List Token} (h : mark c = some m) : Lexes [c] m := by
  intro rest
  obtain ⟨hquote, hword, hcomment, hreturn⟩ := of_mark h
  rw [List.singleton_append, lex, if_neg hquote, if_neg (by simp [hword]), if_neg hcomment, if_neg hreturn, h]
  rfl

theorem lexes_word {w : Str} {c : ℕ} {m : List Token} (hne : w ≠ []) (hw : ∀ d ∈ w, inWord d = true)
    (hc : mark c = some m) : Lexes (w ++ [c]) (.word w :: m) := by
  intro rest
  obtain ⟨-, hword, -, -⟩ := of_mark hc
  cases w with
  | nil => exact absurd rfl hne
  | cons d w =>
    have hd : inWord d = true := hw d List.mem_cons_self
    have hw : ∀ e ∈ w, inWord e = true := fun e he => hw e (List.mem_cons_of_mem _ he)
    have hquote : d ≠ 34 := by
      rintro rfl
      exact absurd hd (by decide)
    have hcstop : ¬ inWord c = true := by rw [hword]; exact Bool.false_ne_true
    have hdrop : (w ++ c :: rest).dropWhile inWord = c :: rest := by
      rw [List.dropWhile_append_of_pos hw, List.dropWhile_cons_of_neg hcstop]
    have htake : (w ++ c :: rest).takeWhile inWord = w := by
      rw [List.takeWhile_append_of_pos hw, List.takeWhile_cons_of_neg hcstop, List.append_nil]
    rw [List.append_assoc, List.cons_append, List.singleton_append, lex, if_neg hquote, if_pos hd, hdrop, htake]
    have hmark : lex (c :: rest) = (lex rest).map fun ts' => m ++ ts' := lexes_mark hc rest
    rw [hmark, Option.map_map]
    rfl

theorem lex_quote (s : Str) :
    lex (34 :: s) = (readBasic s).bind fun r => (lex r.2).map fun ts => .string r.1 :: ts := by
  rw [lex, if_pos rfl]
  split
  · rename_i h
    rw [h]
    rfl
  · rename_i r h
    rw [h]
    rfl

theorem lexes_quoted {v : Str} (h : Basic v) : Lexes (34 :: (v ++ [34])) [.string v] := by
  intro rest
  rw [List.cons_append, List.append_assoc, List.singleton_append, lex_quote, readBasic_of_basic h]
  rfl

/-- **Text between quotation marks, and what follows it**: a string, which is the text when it is basic, and
otherwise something shorter. -/
theorem lex_quoted {v tail : Str} {ts : List Token} (hend : EndsLine tail)
    (h : lex (34 :: (v ++ 34 :: tail)) = some ts) :
    ∃ s ts', ts = .string s :: ts' ∧ ((Basic v ∧ s = v ∧ lex tail = some ts') ∨ s.length < v.length) := by
  rw [lex_quote, Option.bind_eq_some_iff] at h
  obtain ⟨r, hr, h⟩ := h
  obtain ⟨ts', hts', rfl⟩ := Option.map_eq_some_iff.mp h
  refine ⟨r.1, ts', rfl, ?_⟩
  rcases (readsBasic_of_readBasic hr).eq_or_shorter hend with ⟨hbasic, hs, hrest⟩ | hshort
  · exact .inl ⟨hbasic, hs, hrest ▸ hts'⟩
  · exact .inr hshort

/-! ### Documents -/

/-- The values of TOML that are read. -/
inductive Value where
  | string (s : Str)
  | int (n : ℤ)
  | bool (b : Bool)
  | array (vs : List Value)

/-- A document: its tables as they were headed, and its keys with the table that each is in. Keys before
the first table are in `[]`. -/
structure Document where
  headers : List Str
  entries : List (Str × Str × Value)

namespace Document

variable (doc : Document)

/-- The table that keys are in now. -/
def table : Str := doc.headers.getLastD []

/-- The table has the key. -/
def HasKey (table key : Str) : Prop := (table, key) ∈ doc.entries.map fun e => (e.1, e.2.1)

instance (table key : Str) : Decidable (doc.HasKey table key) := inferInstanceAs (Decidable (_ ∈ _))

/-- The value of a key of a table. -/
def get (table key : Str) : Option Value :=
  (doc.entries.find? fun e => decide (e.1 = table ∧ e.2.1 = key)).map fun e => e.2.2

/-- Another table. -/
def head (name : Str) : Option Document :=
  if name ∈ doc.headers ∨ doc.HasKey [] name then none else some { doc with headers := doc.headers ++ [name] }

/-- Another key. -/
def enter (key : Str) (v : Value) : Option Document :=
  if doc.HasKey doc.table key then none
  else some { doc with entries := doc.entries ++ [(doc.table, key, v)] }

/-- Other keys, of the same table. -/
def add (es : List (Str × Value)) : Document :=
  { doc with entries := doc.entries ++ es.map fun e => (doc.table, e.1, e.2) }

end Document

/-- The value of a word. -/
def readWord (w : Str) : Option Value :=
  if w = str "true" then some (.bool true)
  else if w = str "false" then some (.bool false)
  else if isIntWord w then
    some (.int (if w.head? = some 45 then -(spelled (unsigned w) : ℤ) else (spelled (unsigned w) : ℤ)))
  else none

/-- The word is a name. -/
def isBare (w : Str) : Bool := w.all isBareChar

/-- What comes next. -/
inductive Expect where
  /-- The beginning of a line. -/
  | line
  /-- The name of a table. -/
  | header
  /-- The end of a table's name. -/
  | headed (name : Str)
  /-- The end of a line. -/
  | lineEnd
  /-- The equals sign after a key. -/
  | key (key : Str)
  /-- A value, with the arrays that are open, the inmost first; in an array also its end. -/
  | value (key : Str) (arrays : List (List Value))
  /-- A comma or the end of the inmost array. -/
  | item (key : Str) (arrays : List (List Value))

/-- A document as far as it is read. -/
structure Reading where
  doc : Document
  expect : Expect

/-- The key, or the inmost array, is given a value. -/
def place (doc : Document) (key : Str) (arrays : List (List Value)) (v : Value) : Option Reading :=
  match arrays with
  | [] => (doc.enter key v).map fun doc => ⟨doc, .lineEnd⟩
  | vs :: arrays => some ⟨doc, .item key ((vs ++ [v]) :: arrays)⟩

/-- The inmost array ends. -/
def close (doc : Document) (key : Str) (arrays : List (List Value)) : Option Reading :=
  match arrays with
  | [] => none
  | vs :: arrays => place doc key arrays (.array vs)

/-- One token where a value can be. -/
def parseValue (doc : Document) (key : Str) (arrays : List (List Value)) : Token → Option Reading
  | .newline => if arrays = [] then none else some ⟨doc, .value key arrays⟩
  | .lbracket => some ⟨doc, .value key ([] :: arrays)⟩
  | .rbracket => close doc key arrays
  | .string s => place doc key arrays (.string s)
  | .word w => (readWord w).bind (place doc key arrays)
  | _ => none

/-- One token after a value in an array. -/
def parseItem (doc : Document) (key : Str) (arrays : List (List Value)) : Token → Option Reading
  | .newline => some ⟨doc, .item key arrays⟩
  | .comma => some ⟨doc, .value key arrays⟩
  | .rbracket => close doc key arrays
  | _ => none

/-- One token. -/
def parseStep (r : Reading) (tok : Token) : Option Reading :=
  match r.expect, tok with
  | .line, .newline => some r
  | .line, .lbracket => some ⟨r.doc, .header⟩
  | .line, .word w => if isBare w then some ⟨r.doc, .key w⟩ else none
  | .header, .word w => if isBare w then some ⟨r.doc, .headed w⟩ else none
  | .headed name, .rbracket => (r.doc.head name).map fun doc => ⟨doc, .lineEnd⟩
  | .lineEnd, .newline => some ⟨r.doc, .line⟩
  | .key key, .equals => some ⟨r.doc, .value key []⟩
  | .value key arrays, tok => parseValue r.doc key arrays tok
  | .item key arrays, tok => parseItem r.doc key arrays tok
  | _, _ => none

/-- The tokens of a text. -/
def parseRun (r : Reading) (ts : List Token) : Option Reading := ts.foldlM parseStep r

/-- The document, at the end of the text. -/
def Reading.finish (r : Reading) : Option Document :=
  match r.expect with
  | .line => some r.doc
  | .lineEnd => some r.doc
  | _ => none

/-- The reader before a text. -/
def start : Reading := ⟨⟨[], []⟩, .line⟩

/-- The tokens of a document. -/
def parse (ts : List Token) : Option Document := (parseRun start ts).bind Reading.finish

/-- The document that a text is. -/
def read (s : Str) : Option Document := (lex s).bind parse

theorem parseRun_append (r : Reading) (ts ts' : List Token) :
    parseRun r (ts ++ ts') = (parseRun r ts).bind fun r' => parseRun r' ts' := List.foldlM_append

theorem parseRun_cons (r : Reading) (tok : Token) (ts : List Token) :
    parseRun r (tok :: ts) = (parseStep r tok).bind fun r' => parseRun r' ts := List.foldlM_cons

/-! ### What stays -/

theorem Document.enter_eq_some {doc doc' : Document} {key : Str} {v : Value} (h : doc.enter key v = some doc') :
    doc'.headers = doc.headers ∧ doc'.entries = doc.entries ++ [(doc.table, key, v)] := by
  unfold Document.enter at h
  split_ifs at h
  cases h
  exact ⟨rfl, rfl⟩

theorem place_entries {doc : Document} {key : Str} {arrays : List (List Value)} {v : Value} {r : Reading}
    (h : place doc key arrays v = some r) : doc.entries <+: r.doc.entries := by
  cases arrays with
  | nil =>
    obtain ⟨doc', hdoc', rfl⟩ := Option.map_eq_some_iff.mp h
    rw [(Document.enter_eq_some hdoc').2]
    exact List.prefix_append _ _
  | cons vs arrays =>
    cases h
    exact List.prefix_rfl

theorem close_entries {doc : Document} {key : Str} {arrays : List (List Value)} {r : Reading}
    (h : close doc key arrays = some r) : doc.entries <+: r.doc.entries := by
  cases arrays with
  | nil => cases h
  | cons vs arrays => exact place_entries h

theorem parseValue_entries {doc : Document} {key : Str} {arrays : List (List Value)} {tok : Token} {r : Reading}
    (h : parseValue doc key arrays tok = some r) : doc.entries <+: r.doc.entries := by
  cases tok with
  | newline =>
    rw [parseValue] at h
    split_ifs at h
    cases h
    exact List.prefix_rfl
  | lbracket =>
    cases h
    exact List.prefix_rfl
  | rbracket => exact close_entries h
  | equals => cases h
  | comma => cases h
  | string s => exact place_entries h
  | word w =>
    obtain ⟨v, -, h⟩ := Option.bind_eq_some_iff.mp h
    exact place_entries h

theorem parseItem_entries {doc : Document} {key : Str} {arrays : List (List Value)} {tok : Token} {r : Reading}
    (h : parseItem doc key arrays tok = some r) : doc.entries <+: r.doc.entries := by
  cases tok with
  | newline =>
    cases h
    exact List.prefix_rfl
  | comma =>
    cases h
    exact List.prefix_rfl
  | rbracket => exact close_entries h
  | lbracket => cases h
  | equals => cases h
  | string s => cases h
  | word w => cases h

/-- What was entered stays. -/
theorem parseStep_entries {r r' : Reading} {tok : Token} (h : parseStep r tok = some r') :
    r.doc.entries <+: r'.doc.entries := by
  unfold parseStep at h
  split at h
  · cases h
    exact List.prefix_rfl
  · cases h
    exact List.prefix_rfl
  · split_ifs at h
    cases h
    exact List.prefix_rfl
  · split_ifs at h
    cases h
    exact List.prefix_rfl
  · obtain ⟨doc, hdoc, rfl⟩ := Option.map_eq_some_iff.mp h
    unfold Document.head at hdoc
    split_ifs at hdoc
    cases hdoc
    exact List.prefix_rfl
  · cases h
    exact List.prefix_rfl
  · cases h
    exact List.prefix_rfl
  · exact parseValue_entries h
  · exact parseItem_entries h
  · cases h

theorem parseRun_entries {r r' : Reading} {ts : List Token} (h : parseRun r ts = some r') :
    r.doc.entries <+: r'.doc.entries := by
  induction ts generalizing r with
  | nil =>
    cases h
    exact List.prefix_rfl
  | cons tok ts ih =>
    rw [parseRun_cons, Option.bind_eq_some_iff] at h
    obtain ⟨r₁, hstep, hrun⟩ := h
    exact (parseStep_entries hstep).trans (ih hrun)

/-- The key has an array that begins with these values, or its array is open and begins with them. -/
inductive Begun (table key : Str) (base : List Value) : Reading → Prop where
  | entered {r : Reading} (vs : List Value) (hmem : (table, key, .array vs) ∈ r.doc.entries) (hbase : base <+: vs) :
    Begun table key base r
  | value {doc : Document} {arrays : List (List Value)} {vs : List Value} (htable : doc.table = table)
    (hlast : arrays.getLast? = some vs) (hbase : base <+: vs) : Begun table key base ⟨doc, .value key arrays⟩
  | item {doc : Document} {arrays : List (List Value)} {vs : List Value} (htable : doc.table = table)
    (hlast : arrays.getLast? = some vs) (hbase : base <+: vs) : Begun table key base ⟨doc, .item key arrays⟩

section Begun

variable {doc : Document} {key : Str} {arrays : List (List Value)} {base vs : List Value} {r r' : Reading}

theorem begun_of_place (hlast : arrays.getLast? = some vs) (hbase : base <+: vs) {v : Value}
    (h : place doc key arrays v = some r) : Begun doc.table key base r := by
  cases arrays with
  | nil => cases hlast
  | cons us arrays =>
    cases h
    cases arrays with
    | nil =>
      cases hlast
      exact .item rfl rfl (hbase.trans (List.prefix_append _ _))
    | cons us' arrays => exact .item rfl (hlast ▸ rfl) hbase

theorem begun_of_close (hlast : arrays.getLast? = some vs) (hbase : base <+: vs)
    (h : close doc key arrays = some r) : Begun doc.table key base r := by
  cases arrays with
  | nil => cases h
  | cons us arrays =>
    cases arrays with
    | nil =>
      cases hlast
      obtain ⟨doc', hdoc', rfl⟩ := Option.map_eq_some_iff.mp (show (doc.enter key (.array us)).map _ = some r from h)
      refine .entered us ?_ hbase
      rw [(Document.enter_eq_some hdoc').2]
      exact List.mem_append_right _ List.mem_cons_self
    | cons us' arrays =>
      have hplace : place doc key (us' :: arrays) (.array us) = some r := h
      rw [List.getLast?_cons_cons] at hlast
      exact begun_of_place hlast hbase hplace

theorem Begun.step {table : Str} (hb : Begun table key base r) {tok : Token} (h : parseStep r tok = some r') :
    Begun table key base r' := by
  cases hb with
  | entered vs hmem hbase => exact .entered vs ((parseStep_entries h).subset hmem) hbase
  | value htable hlast hbase =>
    subst htable
    have h : parseValue _ key _ tok = some r' := h
    cases tok with
    | newline =>
      rw [parseValue] at h
      split_ifs at h
      cases h
      exact .value rfl hlast hbase
    | lbracket =>
      cases h
      refine .value rfl ?_ hbase
      rw [List.getLast?_cons, hlast]
      rfl
    | rbracket => exact begun_of_close hlast hbase h
    | equals => cases h
    | comma => cases h
    | string s => exact begun_of_place hlast hbase h
    | word w =>
      obtain ⟨v, -, h⟩ := Option.bind_eq_some_iff.mp h
      exact begun_of_place hlast hbase h
  | item htable hlast hbase =>
    subst htable
    have h : parseItem _ key _ tok = some r' := h
    cases tok with
    | newline =>
      cases h
      exact .item rfl hlast hbase
    | comma =>
      cases h
      exact .value rfl hlast hbase
    | rbracket => exact begun_of_close hlast hbase h
    | lbracket => cases h
    | equals => cases h
    | string s => cases h
    | word w => cases h

theorem Begun.run {table : Str} (hb : Begun table key base r) {ts : List Token} (h : parseRun r ts = some r') :
    Begun table key base r' := by
  induction ts generalizing r with
  | nil =>
    cases h
    exact hb
  | cons tok ts ih =>
    rw [parseRun_cons, Option.bind_eq_some_iff] at h
    obtain ⟨r₁, hstep, hrun⟩ := h
    exact ih (hb.step hstep) hrun

end Begun

/-- What is finished has the array. -/
theorem Begun.finish {table key : Str} {base : List Value} {r : Reading} {doc : Document}
    (hb : Begun table key base r) (h : r.finish = some doc) :
    ∃ vs, (table, key, .array vs) ∈ doc.entries ∧ base <+: vs := by
  cases hb with
  | entered vs hmem hbase =>
    refine ⟨vs, ?_, hbase⟩
    unfold Reading.finish at h
    split at h
    · cases h
      exact hmem
    · cases h
      exact hmem
    · cases h
  | value _ _ _ => cases h
  | item _ _ _ => cases h

theorem Reading.finish_entries {r : Reading} {doc : Document} (h : r.finish = some doc) :
    r.doc.entries = doc.entries := by
  unfold Reading.finish at h
  split at h
  · cases h
    rfl
  · cases h
    rfl
  · cases h

/-! ### Reading a text that is put together -/

/-- The text takes the reader from one place to another. -/
def Leads (s : Str) (r r' : Reading) : Prop := ∃ ts, Lexes s ts ∧ parseRun r ts = some r'

namespace Leads

variable {doc doc' : Document} {key : Str} {arrays : List (List Value)} {r r' r'' : Reading} {s s' : Str}

theorem append (h : Leads s r r') (h' : Leads s' r' r'') : Leads (s ++ s') r r'' := by
  obtain ⟨ts, hts, hrun⟩ := h
  obtain ⟨ts', hts', hrun'⟩ := h'
  refine ⟨ts ++ ts', hts.append hts', ?_⟩
  rw [parseRun_append, hrun]
  exact hrun'

/-- A text of marks. -/
theorem marks (h : ∀ c ∈ s, (mark c).isSome = true)
    (hrun : parseRun r (s.flatMap fun c => (mark c).getD []) = some r') : Leads s r r' := by
  refine ⟨_, ?_, hrun⟩
  have hone : ∀ c ∈ s, Lexes [c] ((mark c).getD []) := by
    intro c hc
    obtain ⟨m, hm⟩ := Option.isSome_iff_exists.mp (h c hc)
    rw [hm]
    exact lexes_mark hm
  have hall := Lexes.flatMap hone
  rwa [List.flatMap_singleton'] at hall

theorem word {w : Str} {c : ℕ} {m : List Token} (hne : w ≠ []) (hw : ∀ d ∈ w, inWord d = true)
    (hc : mark c = some m) (hrun : parseRun r (.word w :: m) = some r') : Leads (w ++ [c]) r r' :=
  ⟨_, lexes_word hne hw hc, hrun⟩

theorem quoted {v : Str} (h : Basic v) (hplace : place doc key arrays (.string v) = some r) :
    Leads (34 :: (v ++ [34])) ⟨doc, .value key arrays⟩ r := by
  refine ⟨_, lexes_quoted h, ?_⟩
  rw [parseRun_cons]
  show (place doc key arrays (.string v)).bind _ = _
  rw [hplace]
  rfl

theorem read_eq (h : Leads s start ⟨doc, .line⟩) : read s = some doc := by
  obtain ⟨ts, hts, hrun⟩ := h
  rw [read, hts.lex_eq, Option.bind_some, parse, hrun]
  rfl

/-- What is read after the text, when a document is read. -/
theorem read_append {s' : Str} (h : Leads s start r) (hread : read (s ++ s') = some doc) :
    ∃ ts, lex s' = some ts ∧ (parseRun r ts).bind Reading.finish = some doc := by
  obtain ⟨ts, hts, hrun⟩ := h
  rw [read, hts, Option.bind_eq_some_iff] at hread
  obtain ⟨ts', hts', hparse⟩ := hread
  obtain ⟨ts'', hlex, rfl⟩ := Option.map_eq_some_iff.mp hts'
  refine ⟨ts'', hlex, ?_⟩
  rw [parse] at hparse
  have happend : parseRun start (ts ++ ts'') = parseRun r ts'' := by
    rw [parseRun_append, hrun]
    rfl
  exact happend ▸ hparse

/-- `[name]`. -/
theorem header {name : Str} (hne : name ≠ []) (hbare : isBare name = true) (h : doc.head name = some doc') :
    Leads (str "[" ++ (name ++ str "]") ++ str "\n") ⟨doc, .line⟩ ⟨doc', .line⟩ := by
  have hword : ∀ c ∈ name, inWord c = true := by
    intro c hc
    simp [inWord, List.all_eq_true.mp hbare c hc]
  have hopen : Leads (str "[") ⟨doc, .line⟩ ⟨doc, .header⟩ := marks (by decide) rfl
  have hname : parseStep ⟨doc, .header⟩ (.word name) = some ⟨doc, .headed name⟩ := if_pos hbare
  have hclose : parseStep ⟨doc, .headed name⟩ .rbracket = some ⟨doc', .lineEnd⟩ := by
    show (doc.head name).map _ = _
    rw [h]
    rfl
  have hheaded : Leads (name ++ str "]") ⟨doc, .header⟩ ⟨doc', .lineEnd⟩ := by
    refine word (m := [.rbracket]) hne hword rfl ?_
    rw [parseRun_cons, hname, Option.bind_some, parseRun_cons, hclose]
    rfl
  exact (hopen.append hheaded).append (marks (by decide) rfl)

/-- `key = `. -/
theorem keyed {key : Str} (hne : key ≠ []) (hbare : isBare key = true) :
    Leads (key ++ str " " ++ str "= ") ⟨doc, .line⟩ ⟨doc, .value key []⟩ := by
  have hword : ∀ c ∈ key, inWord c = true := by
    intro c hc
    simp [inWord, List.all_eq_true.mp hbare c hc]
  have hkey : parseStep ⟨doc, .line⟩ (.word key) = some ⟨doc, .key key⟩ := if_pos hbare
  have hname : Leads (key ++ str " ") ⟨doc, .line⟩ ⟨doc, .key key⟩ := by
    refine word (m := []) hne hword rfl ?_
    rw [parseRun_cons, hkey]
    rfl
  exact hname.append (marks (by decide) rfl)

/-- **A string as the value of a key**: it is entered as it is when it is basic, and otherwise as something
shorter. -/
theorem basic_of_value {v tail : Str} {final : Document} (h : Leads s start ⟨doc, .value key []⟩)
    (hend : EndsLine tail) (hread : read (s ++ 34 :: (v ++ 34 :: tail)) = some final) :
    ∃ u, (doc.table, key, .string u) ∈ final.entries ∧ (Basic v ∨ u.length < v.length) := by
  obtain ⟨ts, hlex, hparse⟩ := h.read_append hread
  obtain ⟨u, ts', rfl, hu⟩ := lex_quoted hend hlex
  obtain ⟨r, hrun, hfinish⟩ := Option.bind_eq_some_iff.mp hparse
  rw [parseRun_cons, Option.bind_eq_some_iff] at hrun
  obtain ⟨r₁, hstep, hrun⟩ := hrun
  obtain ⟨doc₁, henter, rfl⟩ := Option.map_eq_some_iff.mp (show (doc.enter key (.string u)).map _ = some r₁ from hstep)
  refine ⟨u, ?_, hu.imp_left And.left⟩
  rw [← Reading.finish_entries hfinish]
  refine (parseRun_entries hrun).subset ?_
  show _ ∈ doc₁.entries
  rw [(Document.enter_eq_some henter).2]
  exact List.mem_append_right _ List.mem_cons_self

/-- **A string in the array of a key.** -/
theorem basic_of_item {v tail : Str} {final : Document} {vs : List Value} (h : Leads s start ⟨doc, .value key [vs]⟩)
    (hend : EndsLine tail) (hread : read (s ++ 34 :: (v ++ 34 :: tail)) = some final) :
    ∃ u us, (doc.table, key, .array us) ∈ final.entries ∧ vs ++ [.string u] <+: us ∧
      (Basic v ∨ u.length < v.length) := by
  obtain ⟨ts, hlex, hparse⟩ := h.read_append hread
  obtain ⟨u, ts', rfl, hu⟩ := lex_quoted hend hlex
  obtain ⟨r, hrun, hfinish⟩ := Option.bind_eq_some_iff.mp hparse
  rw [parseRun_cons, Option.bind_eq_some_iff] at hrun
  obtain ⟨r₁, hstep, hrun⟩ := hrun
  cases hstep
  have hbegun : Begun doc.table key (vs ++ [.string u]) ⟨doc, .item key [vs ++ [.string u]]⟩ :=
    .item rfl rfl List.prefix_rfl
  obtain ⟨us, hmem, hbegins⟩ := (hbegun.run hrun).finish hfinish
  exact ⟨u, us, hmem, hbegins, hu.imp_left And.left⟩

end Leads

/-! ### Lines -/

/-- The text is the value of a key, up to the end of the line. -/
def Spells (s : Str) (v : Value) : Prop :=
  ∀ ⦃doc doc' : Document⦄ ⦃key : Str⦄, doc.enter key v = some doc' →
    Leads (s ++ str "\n") ⟨doc, .value key []⟩ ⟨doc', .line⟩

theorem place_nil {doc doc' : Document} {key : Str} {v : Value} (h : doc.enter key v = some doc') :
    place doc key [] v = some ⟨doc', .lineEnd⟩ := by
  rw [place, h]
  rfl

theorem spells_quoted {v : Str} (h : Basic v) : Spells (34 :: (v ++ [34])) (.string v) := fun _ _ _ henter =>
  (Leads.quoted h (place_nil henter)).append (.marks (by decide) rfl)

theorem spells_word {w : Str} {v : Value} (hne : w ≠ []) (hw : ∀ c ∈ w, inWord c = true)
    (hread : readWord w = some v) : Spells w v := by
  intro doc doc' key henter
  refine .word (c := 10) (m := [.newline]) hne hw rfl ?_
  have hvalue : parseStep ⟨doc, .value key []⟩ (.word w) = some ⟨doc', .lineEnd⟩ := by
    show (readWord w).bind _ = _
    rw [hread]
    exact place_nil henter
  rw [parseRun_cons, hvalue]
  rfl

theorem inWord_decimal {n : ℤ} {c : ℕ} (h : c ∈ decimal n) : inWord c = true := by
  rcases mem_decimal h with rfl | h
  · decide
  · simp [inWord, isBareChar, isDecimal_of_isDigit h]

theorem readWord_decimal (n : ℤ) : readWord (decimal n) = some (.int n) := by
  have hnot : ∀ w : Str, isIntWord w = false → decimal n ≠ w := by
    rintro w hw rfl
    rw [isIntWord_decimal] at hw
    cases hw
  rw [readWord, if_neg (hnot _ (by decide)), if_neg (hnot _ (by decide)), if_pos (isIntWord_decimal n)]
  cases n with
  | ofNat n =>
    have hdigits : ∀ c ∈ natDigits n, IsDigit c := fun c hc => isDigit_of_mem_natDigits hc
    have hsign : (decimal (.ofNat n)).head? ≠ some 45 := by
      intro h
      exact absurd (hdigits 45 (List.mem_of_mem_head? h)).1 (by decide)
    have hunsigned : unsigned (decimal (.ofNat n)) = natDigits n := by
      unfold unsigned
      split
      · rename_i w hw
        exact absurd (hw ▸ rfl) hsign
      · rfl
    rw [if_neg hsign, hunsigned, spelled_natDigits]
    rfl
  | negSucc n =>
    have hsign : (decimal (.negSucc n)).head? = some 45 := rfl
    have hunsigned : unsigned (decimal (.negSucc n)) = natDigits (n + 1) := rfl
    rw [if_pos hsign, hunsigned, spelled_natDigits]
    rfl

theorem spells_decimal (n : ℤ) : Spells (decimal n) (.int n) :=
  spells_word (decimal_ne_nil n) (fun _ => inWord_decimal) (readWord_decimal n)

theorem Document.hasKey_add {doc : Document} {k key : Str} {v : Value} :
    (doc.add [(k, v)]).HasKey doc.table key ↔ doc.HasKey doc.table key ∨ key = k := by
  unfold Document.HasKey Document.add
  rw [List.map_append, List.mem_append, List.map_singleton, List.map_singleton, List.mem_singleton, Prod.mk.injEq]
  exact or_congr_right (and_iff_right rfl)

theorem Document.add_cons (doc : Document) (e : Str × Value) (es : List (Str × Value)) :
    doc.add (e :: es) = (doc.add [e]).add es := by
  unfold Document.add
  rw [List.map_cons, List.map_singleton, List.append_assoc]
  rfl

/-- A key and its value, on a line. -/
theorem Leads.pair {doc : Document} {key s : Str} {v : Value} (hne : key ≠ []) (hbare : isBare key = true)
    (hs : Spells s v) (hnew : ¬ doc.HasKey doc.table key) :
    Leads (key ++ str " = " ++ s ++ str "\n") ⟨doc, .line⟩ ⟨doc.add [(key, v)], .line⟩ := by
  have henter : doc.enter key v = some (doc.add [(key, v)]) := if_neg hnew
  have hline := (keyed hne hbare).append (hs henter)
  have hequals : str " = " = str " " ++ str "= " := rfl
  rw [hequals]
  simpa only [List.append_assoc] using hline

/-- Keys of the current table, a line each. -/
theorem Leads.pairs {ps : List (Str × Str × Value)} (hbare : ∀ p ∈ ps, p.1 ≠ [] ∧ isBare p.1 = true)
    (hspells : ∀ p ∈ ps, Spells p.2.1 p.2.2) (hnodup : (ps.map fun p => p.1).Nodup) :
    ∀ {doc : Document}, (∀ p ∈ ps, ¬ doc.HasKey doc.table p.1) →
      Leads (unlines (ps.map fun p => p.1 ++ str " = " ++ p.2.1)) ⟨doc, .line⟩
        ⟨doc.add (ps.map fun p => (p.1, p.2.2)), .line⟩ := by
  induction ps with
  | nil =>
    intro doc _
    refine .marks (fun _ hc => nomatch hc) ?_
    show some _ = some (Reading.mk (doc.add []) _)
    rw [Document.add, List.map_nil, List.append_nil]
  | cons p ps ih =>
    intro doc hnew
    rw [List.map_cons, List.nodup_cons] at hnodup
    rw [List.forall_mem_cons] at hbare hspells hnew
    have hline := Leads.pair hbare.1.1 hbare.1.2 hspells.1 hnew.1
    have hnew' : ∀ q ∈ ps, ¬ (doc.add [(p.1, p.2.2)]).HasKey (doc.add [(p.1, p.2.2)]).table q.1 := by
      intro q hq hhas
      rcases Document.hasKey_add.mp hhas with hhas | hkey
      · exact hnew.2 q hq hhas
      · exact hnodup.1 (hkey ▸ List.mem_map_of_mem hq)
    have hall := hline.append (ih hbare.2 hspells.2 hnodup.2 hnew')
    rw [List.map_cons, List.map_cons, Document.add_cons]
    exact hall

end Hawal.Lib.Toml
