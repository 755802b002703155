import Hawal.Lib.Json
import Hawal.Lib.Decimal
import Hawal.Lib.Dict

/-!
# JSON text as Python reads and writes it

`loads` is `json.loads`: the text is cut into tokens by a machine that reads one character at a time,
and the tokens are put together by a second machine with a stack of the lists and dicts that are
still open. NaN and the infinities are read too, and of equal keys the last counts. How deep the
lists and dicts of a text may stand in one another is not bounded. `Json.parts` are the pieces that
`json.dump(…, indent=2, ensure_ascii=False)` writes, one after the other, and `dump` is what has been
written when a piece raises.

Each piece is read as the tokens it is meant to say (`readsAll_parts`), and the tokens of a value are
put together to this value again (`parseRun_tokens`).

Floats are read by a function that is given (`FloatReader`), of which it is known that it reads back
what `repr` prints.
-/

namespace Hawal.Lib.Python

/-! ### Words -/

/-- A digit of ASCII. -/
def isDecimal (c : ℕ) : Bool := 48 ≤ c && c ≤ 57

/-- What numbers and the other words are made of. -/
def isWordChar (c : ℕ) : Bool :=
  isDecimal c || (65 ≤ c && c ≤ 90) || (97 ≤ c && c ≤ 122) || c == 43 || c == 45 || c == 46

/-- Without a minus. -/
def unsigned : Str → Str
  | 45 :: w => w
  | w => w

/-- What comes after `0|[1-9]\d*`. -/
def afterInt : Str → Option Str
  | [] => none
  | c :: rest => if c = 48 then some rest else if isDecimal c then some (rest.dropWhile isDecimal) else none

/-- What comes after `\d+`, when it is there. -/
def afterDigits : Str → Option Str
  | [] => none
  | c :: rest => if isDecimal c then some (rest.dropWhile isDecimal) else none

/-- What comes after `(\.\d+)?`. -/
def afterFraction : Str → Str
  | 46 :: rest => (afterDigits rest).getD (46 :: rest)
  | w => w

/-- Without a sign. -/
def withoutSign : Str → Str
  | 43 :: w => w
  | 45 :: w => w
  | w => w

/-- What comes after `([eE][-+]?\d+)?`. -/
def afterExponent : Str → Str
  | [] => []
  | c :: rest => if c = 69 ∨ c = 101 then (afterDigits (withoutSign rest)).getD (c :: rest) else c :: rest

/-- The word is a whole number. -/
def isIntWord (w : Str) : Bool := afterInt (unsigned w) == some []

/-- The word is a number with a fraction or an exponent. -/
def isFloatNumber (w : Str) : Bool :=
  match afterInt (unsigned w) with
  | some (c :: rest) => (afterExponent (afterFraction (c :: rest))).isEmpty
  | _ => false

/-- The word is a float, or one of those that are not numbers or not finite. -/
def isFloatWord (w : Str) : Bool :=
  w.all isWordChar && (isFloatNumber w || w == str "NaN" || w == str "Infinity" || w == str "-Infinity")

/-- How `json.dump` writes a float. -/
def floatText (x : Float64) : Str :=
  if x.shown = str "nan" then str "NaN"
  else if x.shown = str "inf" then str "Infinity"
  else if x.shown = str "-inf" then str "-Infinity"
  else x.shown

/-- `float`, for the words that are floats: it reads back what is printed of what it reads. -/
structure FloatReader where
  read : Str → Float64
  isFloatWord_text : ∀ w, isFloatWord w = true → isFloatWord (floatText (read w)) = true
  read_text : ∀ w, isFloatWord w = true → read (floatText (read w)) = read w

variable (R : FloatReader)

/-- The value of a word; `none` when it is none, or has too many digits. -/
def readWord (w : Str) : Option Json :=
  if w = str "null" then some .null
  else if w = str "true" then some (.bool true)
  else if w = str "false" then some (.bool false)
  else if isIntWord w then (parseInt w).map .int
  else if isFloatWord w then some (.float (R.read w))
  else none

/-! ### Tokens -/

/-- The tokens of JSON. -/
inductive Token where
  | lbrace
  | rbrace
  | lbracket
  | rbracket
  | comma
  | colon
  /-- A string, a number or another word. -/
  | scalar (v : Json)

/-- Where the reader is in the text. -/
inductive Lex where
  /-- Between tokens. -/
  | idle
  /-- In a word. -/
  | word (w : Str)
  /-- In a string, with what it has so far. -/
  | string (s : Str)
  /-- After a backslash. -/
  | escape (s : Str)
  /-- In the digits of `\u`: how many are to come after the next, and their number so far. -/
  | hex (s : Str) (k : ℕ) (n : ℕ)

/-- The tokens of one character, and those of white space. -/
def mark (c : ℕ) : Option (List Token) :=
  if c = 32 ∨ c = 9 ∨ c = 10 ∨ c = 13 then some []
  else if c = 123 then some [.lbrace]
  else if c = 125 then some [.rbrace]
  else if c = 91 then some [.lbracket]
  else if c = 93 then some [.rbracket]
  else if c = 44 then some [.comma]
  else if c = 58 then some [.colon]
  else none

/-- What a character after a backslash stands for. -/
def unescape (c : ℕ) : Option ℕ :=
  if c = 34 ∨ c = 92 ∨ c = 47 then some c
  else if c = 98 then some 8
  else if c = 102 then some 12
  else if c = 110 then some 10
  else if c = 114 then some 13
  else if c = 116 then some 9
  else none

/-- The value of a digit in base sixteen. -/
def hexValue (c : ℕ) : Option ℕ :=
  if 48 ≤ c ∧ c ≤ 57 then some (c - 48)
  else if 97 ≤ c ∧ c ≤ 102 then some (c - 87)
  else if 65 ≤ c ∧ c ≤ 70 then some (c - 55)
  else none

/-- Surrogates that make a pair are one code point. Only escapes give surrogates. -/
def joinPairs : Str → Str
  | hi :: lo :: rest =>
    if 0xD800 ≤ hi ∧ hi < 0xDC00 ∧ 0xDC00 ≤ lo ∧ lo < 0xE000 then
      (0x10000 + (hi - 0xD800) * 0x400 + (lo - 0xDC00)) :: joinPairs rest
    else hi :: joinPairs (lo :: rest)
  | s => s

/-- One character between tokens. -/
def lexIdle (c : ℕ) : Option (Lex × List Token) :=
  if c = 34 then some (.string [], [])
  else if isWordChar c then some (.word [c], [])
  else (mark c).map fun ts => (.idle, ts)

/-- One character. -/
def lexStep : Lex → ℕ → Option (Lex × List Token)
  | .idle, c => lexIdle c
  | .word w, c =>
    if isWordChar c then some (.word (w ++ [c]), [])
    else (readWord R w).bind fun v => (lexIdle c).map fun r => (r.1, .scalar v :: r.2)
  | .string s, c =>
    if c = 34 then some (.idle, [.scalar (.str (joinPairs s))])
    else if c = 92 then some (.escape s, [])
    else if c < 32 then none
    else some (.string (s ++ [c]), [])
  | .escape s, c =>
    if c = 117 then some (.hex s 3 0, []) else (unescape c).map fun d => (.string (s ++ [d]), [])
  | .hex s k n, c =>
    (hexValue c).map fun v =>
      match k with
      | 0 => (.string (s ++ [n * 16 + v]), [])
      | k + 1 => (.hex s k (n * 16 + v), [])

/-- The characters of a text. -/
def lexRun : Lex → Str → Option (Lex × List Token)
  | st, [] => some (st, [])
  | st, c :: s => (lexStep R st c).bind fun r => (lexRun r.1 s).map fun r' => (r'.1, r.2 ++ r'.2)

/-- The last token, at the end of the text. -/
def lexEnd : Lex → Option (List Token)
  | .idle => some []
  | .word w => (readWord R w).map fun v => [.scalar v]
  | _ => none

/-- The tokens of a text. -/
def lex (s : Str) : Option (List Token) :=
  (lexRun R .idle s).bind fun r => (lexEnd R r.1).map fun ts => r.2 ++ ts

/-! ### Values -/

/-- A list or a dict that is open. -/
inductive Frame where
  | list (xs : List Json)
  /-- With the key whose value comes next. -/
  | dict (fields : Fields) (key : Str)

/-- What comes next. -/
inductive Expect where
  /-- A value, or the end of the list that has just begun. -/
  | value (first : Bool) (stack : List Frame)
  /-- A key, or the end of the dict that has just begun. -/
  | key (first : Bool) (fields : Fields) (stack : List Frame)
  | colon (fields : Fields) (key : Str) (stack : List Frame)
  /-- A comma or the end of the list. -/
  | item (xs : List Json) (stack : List Frame)
  /-- A comma or the end of the dict. -/
  | field (fields : Fields) (stack : List Frame)
  /-- Nothing. -/
  | done (v : Json)

/-- `d[k] = v`. -/
def setField (d : Fields) (k : Str) (v : Json) : Fields := Dict.set id d k v

/-- A value is complete. -/
def complete : List Frame → Json → Expect
  | [], v => .done v
  | .list xs :: stack, v => .item (xs ++ [v]) stack
  | .dict fields key :: stack, v => .field (setField fields key v) stack

/-- One token. -/
def parseStep : Expect → Token → Option Expect
  | .value _ stack, .scalar v => some (complete stack v)
  | .value _ stack, .lbracket => some (.value true (.list [] :: stack))
  | .value _ stack, .lbrace => some (.key true [] stack)
  | .value true (.list [] :: stack), .rbracket => some (complete stack (.list []))
  | .key _ fields stack, .scalar (.str k) => some (.colon fields k stack)
  | .key true fields stack, .rbrace => some (complete stack (.dict fields))
  | .colon fields key stack, .colon => some (.value false (.dict fields key :: stack))
  | .item xs stack, .comma => some (.value false (.list xs :: stack))
  | .item xs stack, .rbracket => some (complete stack (.list xs))
  | .field fields stack, .comma => some (.key false fields stack)
  | .field fields stack, .rbrace => some (complete stack (.dict fields))
  | _, _ => none

/-- The tokens of a text. -/
def parseRun : Expect → List Token → Option Expect
  | st, [] => some st
  | st, t :: ts => (parseStep st t).bind fun st' => parseRun st' ts

/-- The value of tokens. -/
def parse (ts : List Token) : Option Json :=
  match parseRun (.value false []) ts with
  | some (.done v) => some v
  | _ => none

/-- `json.loads` of a string; `none` when it raises. -/
def loads (s : Str) : Option Json := (lex R s).bind parse

/-! ### Writing -/

/-- A character of a string. -/
def escapeChar (c : ℕ) : Str :=
  if c = 34 then str "\\\""
  else if c = 92 then str "\\\\"
  else if c = 10 then str "\\n"
  else if c = 13 then str "\\r"
  else if c = 9 then str "\\t"
  else if c = 12 then str "\\f"
  else if c = 8 then str "\\b"
  else if c < 32 then str "\\u" ++ hexDigits 4 c
  else [c]

/-- A string in quotes. -/
def quoted (s : Str) : Str := 34 :: (s.flatMap escapeChar ++ [34])

/-- The text of a value that is no list and no dict, and no string. -/
def wordText : Json → Option Str
  | .null => some (str "null")
  | .bool b => some (str (if b then "true" else "false"))
  | .int n => some (decimal n)
  | .float x => some (floatText x)
  | _ => none

/-- A piece that is written: its text, what it says, and in how many open lists and dicts. -/
structure Part where
  text : Str
  tokens : List Token
  level : ℕ

/-- A piece that says nothing but goes to a new line. -/
def newline (level : ℕ) : Str := 10 :: List.replicate (2 * level) 32

/-- The piece with more behind it. -/
def Part.and (p : Part) (text : Str) (v : Json) : Part :=
  { p with text := p.text ++ text, tokens := p.tokens ++ [.scalar v] }

mutual

/-- The pieces of a list or dict that stands in `level` others. -/
def Json.parts (level : ℕ) : Json → List Part
  | .list [] => [⟨str "[]", [.lbracket, .rbracket], level + 1⟩]
  | .list (x :: xs) =>
    itemParts (level + 1) ⟨str "[" ++ newline (level + 1), [.lbracket], level + 1⟩ (x :: xs) ++
      [⟨newline level, [], level + 1⟩, ⟨str "]", [.rbracket], level + 1⟩]
  | .dict [] => [⟨str "\x7b\x7d", [.lbrace, .rbrace], level + 1⟩]
  | .dict (f :: fs) =>
    ⟨str "\x7b", [.lbrace], level + 1⟩ :: fieldParts (level + 1) ⟨newline (level + 1), [], level + 1⟩ (f :: fs) ++
      [⟨newline level, [], level + 1⟩, ⟨str "\x7d", [.rbrace], level + 1⟩]
  | _ => []

/-- The items of a list, the first after the piece `sep`. -/
def itemParts (level : ℕ) (sep : Part) : List Json → List Part
  | [] => []
  | x :: xs =>
    (match x with
      | .str s => [sep.and (quoted s) x]
      | _ =>
        match wordText x with
        | some w => [sep.and w x]
        | none => sep :: Json.parts level x) ++
      itemParts level ⟨str "," ++ newline level, [.comma], level⟩ xs

/-- The fields of a dict, the first after the piece `sep`. What is no string is always written, so
that a word can be one piece with the colon before it. -/
def fieldParts (level : ℕ) (sep : Part) : Fields → List Part
  | [] => []
  | (k, v) :: fs =>
    sep :: ⟨quoted k, [.scalar (.str k)], level⟩ ::
      ((match v with
        | .str s => [⟨str ": ", [.colon], level⟩, ⟨quoted s, [.scalar v], level⟩]
        | _ =>
          match wordText v with
          | some w => [(⟨str ": ", [.colon], level⟩ : Part).and w v]
          | none => ⟨str ": ", [.colon], level⟩ :: Json.parts level v) ++
        fieldParts level ⟨str "," ++ newline level, [.comma], level⟩ fs)

end

/-- The text of pieces. -/
def textOf (ps : List Part) : Str := ps.flatMap Part.text

/-- What pieces say. -/
def tokensOf (ps : List Part) : List Token := ps.flatMap Part.tokens

/-- The piece can be written to a UTF-8 file, by calls no deeper than `nesting`. -/
def Part.Ok (nesting : ℕ) (p : Part) : Prop := p.level ≤ nesting ∧ Encodable p.text

instance Part.decidableOk (nesting : ℕ) (p : Part) : Decidable (p.Ok nesting) := inferInstanceAs (Decidable (_ ∧ _))

/-- `json.dump`: what is written until a piece raises, and whether none does. -/
def dump (nesting : ℕ) : List Part → Str × Bool
  | [] => ([], true)
  | p :: ps =>
    if p.Ok nesting then
      let rest := dump nesting ps
      (p.text ++ rest.1, rest.2)
    else ([], false)

/-! ### Reading what is written: characters -/

variable {R}

theorem lexRun_append (st : Lex) (s t : Str) :
    lexRun R st (s ++ t) = (lexRun R st s).bind fun r => (lexRun R r.1 t).map fun r' => (r'.1, r.2 ++ r'.2) := by
  induction s generalizing st with
  | nil =>
    cases h : lexRun R st t <;> simp [lexRun, h]
  | cons c s ih =>
    rw [List.cons_append, lexRun, lexRun]
    cases lexStep R st c with
    | none => rfl
    | some r =>
      rw [Option.bind_some, Option.bind_some, ih]
      cases lexRun R r.1 s with
      | none => rfl
      | some r' =>
        cases h : lexRun R r'.1 t <;> simp [h]

/-- A word is read to its end. -/
theorem lexRun_word {w : Str} (h : ∀ c ∈ w, isWordChar c = true) (a : Str) :
    lexRun R (.word a) w = some (.word (a ++ w), []) := by
  induction w generalizing a with
  | nil => rw [List.append_nil]; rfl
  | cons c w ih =>
    rw [lexRun, lexStep, if_pos (h c List.mem_cons_self), Option.bind_some,
      ih fun d hd => h d (List.mem_cons_of_mem _ hd)]
    simp

theorem lexRun_idle_word {w : Str} (hne : w ≠ []) (h : ∀ c ∈ w, isWordChar c = true) :
    lexRun R .idle w = some (.word w, []) := by
  cases w with
  | nil => exact absurd rfl hne
  | cons c w =>
    have hc : isWordChar c = true := h c List.mem_cons_self
    have hquote : c ≠ 34 := by
      rintro rfl
      exact absurd hc (by decide)
    rw [lexRun, lexStep, lexIdle, if_neg hquote, if_pos hc, Option.bind_some,
      lexRun_word fun d hd => h d (List.mem_cons_of_mem _ hd)]
    rfl

theorem hexValue_digit (n : ℕ) : hexValue (Nat.digitChar (n % 16)).toNat = some (n % 16) := by
  have hdigit : ∀ d < 16, hexValue (Nat.digitChar d).toNat = some d := by decide
  exact hdigit (n % 16) (Nat.mod_lt n (by decide))

/-- A control character is read back from its four digits. -/
theorem lexRun_hexDigits (a : Str) {c : ℕ} (h : c < 32) :
    lexRun R (.hex a 3 0) (hexDigits 4 c) = some (.string (a ++ [c]), []) := by
  have hvalue : (((0 * 16 + c / 16 / 16 / 16 % 16) * 16 + c / 16 / 16 % 16) * 16 + c / 16 % 16) * 16 + c % 16 = c := by
    omega
  simp only [hexDigits, List.nil_append, List.cons_append, lexRun, lexStep, hexValue_digit, Option.map_some,
    Option.bind_some, List.append_nil]
  rw [hvalue]

/-- A character of a string is read back. -/
theorem lexRun_escapeChar (a : Str) (c : ℕ) : lexRun R (.string a) (escapeChar c) = some (.string (a ++ [c]), []) := by
  unfold escapeChar
  split
  · rename_i h
    subst h
    rfl
  split
  · rename_i h
    subst h
    rfl
  split
  · rename_i h
    subst h
    rfl
  split
  · rename_i h
    subst h
    rfl
  split
  · rename_i h
    subst h
    rfl
  split
  · rename_i h
    subst h
    rfl
  split
  · rename_i h
    subst h
    rfl
  split
  · rename_i h
    have hstart : lexRun R (.string a) (str "\\u") = some (.hex a 3 0, []) := rfl
    rw [lexRun_append, hstart, Option.bind_some, lexRun_hexDigits a h]
    rfl
  · rename_i hquote hslash _ _ _ _ _ hspace
    rw [lexRun, lexStep, if_neg hquote, if_neg hslash, if_neg hspace]
    rfl

theorem lexRun_flatMap_escapeChar (a s : Str) :
    lexRun R (.string a) (s.flatMap escapeChar) = some (.string (a ++ s), []) := by
  induction s generalizing a with
  | nil => rw [List.append_nil]; rfl
  | cons c s ih =>
    rw [List.flatMap_cons, lexRun_append, lexRun_escapeChar, Option.bind_some, ih]
    simp

theorem lexRun_quoted (s : Str) : lexRun R .idle (quoted s) = some (.idle, [.scalar (.str (joinPairs s))]) := by
  have hopen : lexRun R .idle (quoted s) = lexRun R (.string []) (s.flatMap escapeChar ++ [34]) := by
    show (lexRun R (.string []) (s.flatMap escapeChar ++ [34])).map (fun r => (r.1, [] ++ r.2)) = _
    cases lexRun R (.string []) (s.flatMap escapeChar ++ [34]) <;> rfl
  rw [hopen, lexRun_append, lexRun_flatMap_escapeChar, Option.bind_some]
  rfl

/-- Without surrogates there are no pairs. -/
theorem joinPairs_of_encodable {s : Str} (h : Encodable s) : joinPairs s = s := by
  induction s with
  | nil => rfl
  | cons c s ih =>
    have hs : joinPairs s = s := ih fun d hd => h d (List.mem_cons_of_mem _ hd)
    cases s with
    | nil => rfl
    | cons d s =>
      have hpair : ¬ (0xD800 ≤ c ∧ c < 0xDC00 ∧ 0xDC00 ≤ d ∧ d < 0xE000) := by
        rintro ⟨hlo, hhi, -, -⟩
        exact h c List.mem_cons_self ⟨hlo, by omega⟩
      rw [joinPairs, if_neg hpair, hs]

theorem encodable_append {s t : Str} : Encodable (s ++ t) ↔ Encodable s ∧ Encodable t := List.forall_mem_append

theorem encodable_escapeChar {c : ℕ} : Encodable (escapeChar c) ↔ Encodable [c] := by
  have hsmall : ∀ (t : Str), c < 0xD800 → Encodable t → (Encodable t ↔ Encodable [c]) := by
    intro t hc ht
    refine iff_of_true ht fun d hd => ?_
    rw [List.mem_singleton.mp hd]
    omega
  unfold escapeChar
  split
  · exact hsmall _ (by omega) (encodable_str _)
  split
  · exact hsmall _ (by omega) (encodable_str _)
  split
  · exact hsmall _ (by omega) (encodable_str _)
  split
  · exact hsmall _ (by omega) (encodable_str _)
  split
  · exact hsmall _ (by omega) (encodable_str _)
  split
  · exact hsmall _ (by omega) (encodable_str _)
  split
  · exact hsmall _ (by omega) (encodable_str _)
  split
  · exact hsmall _ (by omega) ((encodable_str _).append (hexDigits_encodable 4 c))
  · exact Iff.rfl

/-- A string can be written exactly if it has no surrogates. -/
theorem encodable_quoted {s : Str} : Encodable (quoted s) ↔ Encodable s := by
  have hquote : Encodable [34] := by decide
  have hflat : Encodable (s.flatMap escapeChar) ↔ Encodable s := by
    induction s with
    | nil => exact Iff.rfl
    | cons c s ih =>
      rw [List.flatMap_cons, encodable_append, ih, encodable_escapeChar, ← encodable_append]
      exact Iff.rfl
  show Encodable ([34] ++ (s.flatMap escapeChar ++ [34])) ↔ _
  rw [encodable_append, encodable_append, hflat]
  exact ⟨fun h => h.2.1, fun h => ⟨hquote, h, hquote⟩⟩

/-! ### Reading what is written: words -/

/-- What `loads` returns: its numbers have been read, and its dicts have each key once. -/
inductive Loaded (R : FloatReader) : Json → Prop where
  | null : Loaded R .null
  | bool (b : Bool) : Loaded R (.bool b)
  | int (n : ℤ) (h : (natDigits n.natAbs).length ≤ maxStrDigits) : Loaded R (.int n)
  | float (w : Str) (h : isFloatWord w = true) : Loaded R (.float (R.read w))
  | str (s : Str) : Loaded R (.str s)
  | list (xs : List Json) (h : ∀ x ∈ xs, Loaded R x) : Loaded R (.list xs)
  | dict (fields : Fields) (nodup : (fields.map Prod.fst).Nodup) (h : ∀ f ∈ fields, Loaded R f.2) :
    Loaded R (.dict fields)

theorem isDecimal_of_isDigit {c : ℕ} (h : IsDigit c) : isDecimal c = true := by
  rw [isDecimal, Bool.and_eq_true, decide_eq_true_eq, decide_eq_true_eq]
  exact h

theorem afterInt_natDigits (n : ℕ) : afterInt (natDigits n) = some [] := by
  have hdigits : ∀ c ∈ natDigits n, IsDigit c := fun c hc => isDigit_of_mem_natDigits hc
  cases hn : natDigits n with
  | nil => exact absurd hn (natDigits_ne_nil n)
  | cons c ds =>
    rw [hn] at hdigits
    rw [afterInt]
    split
    · rename_i hzero
      subst hzero
      rw [natDigits_eq_zero_cons hn]
    · have hrest : ds.dropWhile isDecimal = [] :=
        List.dropWhile_eq_nil_iff.mpr fun d hd => isDecimal_of_isDigit (hdigits d (List.mem_cons_of_mem _ hd))
      rw [if_pos (isDecimal_of_isDigit (hdigits c List.mem_cons_self)), hrest]

/-- Numbers are printed as whole numbers. -/
theorem isIntWord_decimal (n : ℤ) : isIntWord (decimal n) = true := by
  have hunsigned : unsigned (decimal n) = natDigits n.natAbs := by
    cases n with
    | ofNat n =>
      rw [decimal]
      have hdigits : ∀ c ∈ natDigits n, IsDigit c := fun c hc => isDigit_of_mem_natDigits hc
      unfold unsigned
      split
      · rename_i w hw
        exact absurd (hdigits 45 (hw ▸ List.mem_cons_self)).1 (by decide)
      · rfl
    | negSucc n => rfl
  rw [isIntWord, hunsigned, afterInt_natDigits]
  rfl

theorem isWordChar_decimal {n : ℤ} {c : ℕ} (h : c ∈ decimal n) : isWordChar c = true := by
  rcases mem_decimal h with rfl | h
  · decide
  · simp [isWordChar, isDecimal_of_isDigit h]

theorem isFloatWord_of_text (w : Str) (h : isFloatWord w = true) :
    isIntWord w = false ∧ w ≠ str "null" ∧ w ≠ str "true" ∧ w ≠ str "false" := by
  refine ⟨?_, ?_, ?_, ?_⟩
  · unfold isFloatWord at h
    simp only [Bool.and_eq_true, Bool.or_eq_true, beq_iff_eq] at h
    rcases h.2 with ((hnum | rfl) | rfl) | rfl
    · unfold isFloatNumber at hnum
      unfold isIntWord
      split at hnum
      · rename_i c rest hint
        rw [hint]
        rfl
      · cases hnum
    · decide
    · decide
    · decide
  · rintro rfl
    exact absurd h (by decide)
  · rintro rfl
    exact absurd h (by decide)
  · rintro rfl
    exact absurd h (by decide)

theorem encodable_of_isWordChar {w : Str} (h : ∀ c ∈ w, isWordChar c = true) : Encodable w := by
  intro c hc
  have hword := h c hc
  simp only [isWordChar, isDecimal, Bool.or_eq_true, Bool.and_eq_true, decide_eq_true_eq, beq_iff_eq] at hword
  omega

/-- A text that is read as one word with this value. -/
structure WordFor (R : FloatReader) (w : Str) (v : Json) : Prop where
  read : readWord R w = some v
  nonempty : w ≠ []
  chars : ∀ c ∈ w, isWordChar c = true

/-- Words are read back. -/
theorem wordFor_wordText {v : Json} {w : Str} (hv : Loaded R v) (hw : wordText v = some w) : WordFor R w v := by
  cases hv with
  | null =>
    cases hw
    exact ⟨rfl, by decide, by decide⟩
  | bool b =>
    cases hw
    cases b with
    | false => exact ⟨rfl, by decide, by decide⟩
    | true => exact ⟨rfl, by decide, by decide⟩
  | int n h =>
    cases hw
    have hint : isIntWord (decimal n) = true := isIntWord_decimal n
    have hne : ∀ t : Str, isIntWord t = false → decimal n ≠ t := by
      rintro t ht rfl
      rw [hint] at ht
      cases ht
    refine ⟨?_, ?_, fun c hc => isWordChar_decimal hc⟩
    · rw [readWord, if_neg (hne _ (by decide)), if_neg (hne _ (by decide)), if_neg (hne _ (by decide)), if_pos hint,
        parseInt_decimal h]
      rfl
    · exact hne [] (by decide)
  | float t h =>
    cases hw
    have hfloat : isFloatWord (floatText (R.read t)) = true := R.isFloatWord_text t h
    obtain ⟨hint, hnull, htrue, hfalse⟩ := isFloatWord_of_text _ hfloat
    refine ⟨?_, ?_, ?_⟩
    · rw [readWord, if_neg hnull, if_neg htrue, if_neg hfalse, if_neg (by rw [hint]; exact Bool.false_ne_true),
        if_pos hfloat, R.read_text t h]
    · intro hnil
      rw [hnil] at hfloat
      exact absurd hfloat (by decide)
    · rw [isFloatWord, Bool.and_eq_true, List.all_eq_true] at hfloat
      exact hfloat.1
  | str s => cases hw
  | list xs h => cases hw
  | dict fields nodup h => cases hw

/-! ### Reading what is written: pieces -/

/-- The piece is read as what it says, whatever came before: it does not begin inside of a word. -/
structure Part.Reads (R : FloatReader) (p : Part) : Prop where
  apart : ∃ c s, p.text = c :: s ∧ isWordChar c = false
  lexed : ∃ st ts ts', lexRun R .idle p.text = some (st, ts) ∧ lexEnd R st = some ts' ∧ ts ++ ts' = p.tokens

/-- The piece leaves the reader between tokens. -/
structure Part.Closed (R : FloatReader) (p : Part) : Prop where
  apart : ∃ c s, p.text = c :: s ∧ isWordChar c = false
  lexed : lexRun R .idle p.text = some (.idle, p.tokens)

theorem Part.Closed.reads {p : Part} (h : p.Closed R) : p.Reads R :=
  ⟨h.apart, .idle, p.tokens, [], h.lexed, rfl, List.append_nil _⟩

/-- Before a character that is in no word, the word of before is complete. -/
theorem lexRun_of_lexEnd {st : Lex} {ts₀ : List Token} (h : lexEnd R st = some ts₀) {c : ℕ}
    (hc : isWordChar c = false) (s : Str) :
    lexRun R st (c :: s) = (lexRun R .idle (c :: s)).map fun r => (r.1, ts₀ ++ r.2) := by
  cases st with
  | idle =>
    cases h
    cases hrun : lexRun R .idle (c :: s) with
    | none => rfl
    | some r => rfl
  | word w =>
    obtain ⟨v, hv, rfl⟩ := Option.map_eq_some_iff.mp h
    rw [lexRun, lexRun, lexStep, lexStep, if_neg (by rw [hc]; exact Bool.false_ne_true), hv, Option.bind_some]
    cases lexIdle c with
    | none => rfl
    | some r =>
      rw [Option.map_some, Option.bind_some, Option.bind_some, Option.map_map]
      rfl
  | string s => cases h
  | escape s => cases h
  | hex s k n => cases h

/-- Pieces are read as what they say, one after the other. -/
theorem lexRun_textOf {ps : List Part} (hps : ∀ p ∈ ps, p.Reads R) :
    ∀ {st : Lex} {ts₀ : List Token}, lexEnd R st = some ts₀ →
      ∃ st' ts ts', lexRun R st (textOf ps) = some (st', ts) ∧ lexEnd R st' = some ts' ∧
        ts ++ ts' = ts₀ ++ tokensOf ps := by
  induction ps with
  | nil =>
    intro st ts₀ h
    exact ⟨st, [], ts₀, rfl, h, by simp [tokensOf]⟩
  | cons p ps ih =>
    intro st ts₀ h
    obtain ⟨⟨c, s, htext, hc⟩, st₁, ts, ts', hrun, hend, htokens⟩ := hps p List.mem_cons_self
    obtain ⟨st₂, us, us', hrun₂, hend₂, htokens₂⟩ := ih (fun q hq => hps q (List.mem_cons_of_mem _ hq)) hend
    have hfirst : lexRun R st p.text = some (st₁, ts₀ ++ ts) := by
      rw [htext, lexRun_of_lexEnd h hc, ← htext, hrun]
      rfl
    refine ⟨st₂, (ts₀ ++ ts) ++ us, us', ?_, hend₂, ?_⟩
    · show lexRun R st (p.text ++ textOf ps) = _
      rw [lexRun_append, hfirst, Option.bind_some, hrun₂]
      rfl
    · show (ts₀ ++ ts) ++ us ++ us' = ts₀ ++ (p.tokens ++ tokensOf ps)
      rw [← htokens, List.append_assoc, htokens₂]
      simp only [List.append_assoc]

theorem lex_textOf {ps : List Part} (hps : ∀ p ∈ ps, p.Reads R) : lex R (textOf ps) = some (tokensOf ps) := by
  have hidle : lexEnd R .idle = some [] := rfl
  obtain ⟨st, ts, ts', hrun, hend, htokens⟩ := lexRun_textOf hps hidle
  rw [lex, hrun, Option.bind_some, hend, Option.map_some, htokens]
  rfl

theorem lexRun_spaces (n : ℕ) : lexRun R .idle (List.replicate n 32) = some (.idle, []) := by
  induction n with
  | zero => rfl
  | succ n ih =>
    have hspace : lexStep R .idle 32 = some (.idle, []) := rfl
    rw [List.replicate_succ, lexRun, hspace, Option.bind_some, ih]
    rfl

theorem lexRun_newline (level : ℕ) : lexRun R .idle (newline level) = some (.idle, []) := by
  have hline : lexStep R .idle 10 = some (.idle, []) := rfl
  rw [newline, lexRun, hline, Option.bind_some, lexRun_spaces]
  rfl

theorem closed_newline (level l : ℕ) : (⟨newline level, [], l⟩ : Part).Closed R :=
  ⟨⟨10, _, rfl, rfl⟩, lexRun_newline level⟩

/-- A bracket or comma and a new line. -/
theorem closed_mark_newline {c : ℕ} {t : Token} (hword : isWordChar c = false)
    (hmark : lexStep R .idle c = some (.idle, [t])) (level l : ℕ) :
    (⟨[c] ++ newline level, [t], l⟩ : Part).Closed R := by
  refine ⟨⟨c, newline level, rfl, hword⟩, ?_⟩
  show lexRun R .idle (c :: newline level) = _
  rw [lexRun, hmark, Option.bind_some, lexRun_newline]
  rfl

theorem closed_quoted {s : Str} (h : Encodable s) (l : ℕ) : (⟨quoted s, [.scalar (.str s)], l⟩ : Part).Closed R := by
  refine ⟨⟨34, _, rfl, by decide⟩, ?_⟩
  rw [lexRun_quoted, joinPairs_of_encodable h]

theorem closed_colon (l : ℕ) : (⟨str ": ", [.colon], l⟩ : Part).Closed R :=
  ⟨⟨58, _, rfl, by decide⟩, rfl⟩

theorem apart_and {p : Part} (h : ∃ c s, p.text = c :: s ∧ isWordChar c = false) (t : Str) (v : Json) :
    ∃ c s, (p.and t v).text = c :: s ∧ isWordChar c = false := by
  obtain ⟨c, s, htext, hc⟩ := h
  refine ⟨c, s ++ t, ?_, hc⟩
  rw [Part.and, htext]
  rfl

/-- A word behind a piece. -/
theorem Part.Closed.reads_and {p : Part} (h : p.Closed R) {w : Str} {v : Json} (hw : WordFor R w v) :
    (p.and w v).Reads R := by
  refine ⟨apart_and h.apart w v, .word w, p.tokens, [.scalar v], ?_, ?_, rfl⟩
  · show lexRun R .idle (p.text ++ w) = _
    rw [lexRun_append, h.lexed, Option.bind_some, lexRun_idle_word hw.nonempty hw.chars]
    simp
  · rw [lexEnd, hw.read]
    rfl

/-- A string behind a piece. -/
theorem Part.Closed.reads_and_quoted {p : Part} (h : p.Closed R) {s : Str} (hs : Encodable s) :
    (p.and (quoted s) (.str s)).Reads R := by
  refine ⟨apart_and h.apart _ _, .idle, p.tokens ++ [.scalar (.str s)], [], ?_, rfl, List.append_nil _⟩
  show lexRun R .idle (p.text ++ quoted s) = _
  rw [lexRun_append, h.lexed, Option.bind_some, (closed_quoted hs 0).lexed]
  rfl

/-- Every piece that can be written is read, in a list of them. -/
def ReadsAll (R : FloatReader) (ps : List Part) : Prop := ∀ p ∈ ps, Encodable p.text → p.Reads R

theorem ReadsAll.append {ps qs : List Part} (hp : ReadsAll R ps) (hq : ReadsAll R qs) : ReadsAll R (ps ++ qs) :=
  List.forall_mem_append.mpr ⟨hp, hq⟩

theorem ReadsAll.cons {p : Part} {ps : List Part} (hp : Encodable p.text → p.Reads R) (hps : ReadsAll R ps) :
    ReadsAll R (p :: ps) := List.forall_mem_cons.mpr ⟨hp, hps⟩

theorem readsAll_nil : ReadsAll R [] := fun p hp => by cases hp

/-- The pieces of one item of a list. -/
def itemHead (level : ℕ) (sep : Part) (x : Json) : List Part :=
  match x with
  | .str s => [sep.and (quoted s) x]
  | _ =>
    match wordText x with
    | some w => [sep.and w x]
    | none => sep :: Json.parts level x

theorem itemParts_cons (level : ℕ) (sep : Part) (x : Json) (xs : List Json) :
    itemParts level sep (x :: xs) =
      itemHead level sep x ++ itemParts level ⟨str "," ++ newline level, [.comma], level⟩ xs := by
  cases x <;> rfl

/-- The pieces of the value of a field. -/
def fieldHead (level : ℕ) (v : Json) : List Part :=
  match v with
  | .str s => [⟨str ": ", [.colon], level⟩, ⟨quoted s, [.scalar v], level⟩]
  | _ =>
    match wordText v with
    | some w => [(⟨str ": ", [.colon], level⟩ : Part).and w v]
    | none => ⟨str ": ", [.colon], level⟩ :: Json.parts level v

theorem fieldParts_cons (level : ℕ) (sep : Part) (k : Str) (v : Json) (fs : Fields) :
    fieldParts level sep ((k, v) :: fs) = sep :: ⟨quoted k, [.scalar (.str k)], level⟩ ::
      (fieldHead level v ++ fieldParts level ⟨str "," ++ newline level, [.comma], level⟩ fs) := by
  cases v <;> rfl

theorem readsAll_itemHead {level : ℕ} {sep : Part} (hsep : sep.Closed R) {x : Json} (hx : Loaded R x)
    (hparts : ReadsAll R (Json.parts level x)) : ReadsAll R (itemHead level sep x) := by
  have hword : ∀ w, wordText x = some w → ReadsAll R [sep.and w x] := fun w hw =>
    .cons (fun _ => hsep.reads_and (wordFor_wordText hx hw)) readsAll_nil
  cases x with
  | null => exact hword _ rfl
  | bool b => exact hword _ rfl
  | int n => exact hword _ rfl
  | float x => exact hword _ rfl
  | str s =>
    refine .cons (fun h => ?_) readsAll_nil
    exact hsep.reads_and_quoted (encodable_quoted.mp (encodable_append.mp h).2)
  | list xs => exact .cons (fun _ => hsep.reads) hparts
  | dict fs => exact .cons (fun _ => hsep.reads) hparts

theorem readsAll_fieldHead {level : ℕ} {v : Json} (hv : Loaded R v) (hparts : ReadsAll R (Json.parts level v)) :
    ReadsAll R (fieldHead level v) := by
  have hword : ∀ w, wordText v = some w → ReadsAll R [(⟨str ": ", [.colon], level⟩ : Part).and w v] := fun w hw =>
    .cons (fun _ => (closed_colon level).reads_and (wordFor_wordText hv hw)) readsAll_nil
  cases v with
  | null => exact hword _ rfl
  | bool b => exact hword _ rfl
  | int n => exact hword _ rfl
  | float x => exact hword _ rfl
  | str s =>
    refine .cons (fun _ => (closed_colon level).reads) (.cons (fun h => ?_) readsAll_nil)
    exact (closed_quoted (encodable_quoted.mp h) level).reads
  | list xs => exact .cons (fun _ => (closed_colon level).reads) hparts
  | dict fs => exact .cons (fun _ => (closed_colon level).reads) hparts

/-- The pieces of a dict, from those of its fields. -/
theorem readsAll_dict {level : ℕ} {f : Str × Json} {fs : Fields}
    (h : ReadsAll R (fieldParts (level + 1) ⟨newline (level + 1), [], level + 1⟩ (f :: fs))) :
    ReadsAll R (Json.parts level (.dict (f :: fs))) := by
  have hopen : (⟨str "\x7b", [.lbrace], level + 1⟩ : Part).Reads R :=
    ⟨⟨123, _, rfl, by decide⟩, .idle, _, [], rfl, rfl, rfl⟩
  have hclose : (⟨str "\x7d", [.rbrace], level + 1⟩ : Part).Reads R :=
    ⟨⟨125, _, rfl, by decide⟩, .idle, _, [], rfl, rfl, rfl⟩
  rw [Json.parts]
  refine .append (.cons (fun _ => hopen) h) ?_
  exact .cons (fun _ => (closed_newline level _).reads) (.cons (fun _ => hclose) readsAll_nil)

mutual

/-- The pieces of a list or dict. -/
theorem readsAll_parts : ∀ (v : Json) (level : ℕ), Loaded R v → ReadsAll R (Json.parts level v)
  | .list [], level, _ => .cons (fun _ => ⟨⟨91, _, rfl, by decide⟩, .idle, _, [], rfl, rfl, rfl⟩) readsAll_nil
  | .list (x :: xs), level, h => by
    have hitems : ∀ y ∈ x :: xs, Loaded R y := by
      cases h with
      | list _ h => exact h
    have hclose : (⟨str "]", [.rbracket], level + 1⟩ : Part).Reads R :=
      ⟨⟨93, _, rfl, by decide⟩, .idle, _, [], rfl, rfl, rfl⟩
    rw [Json.parts]
    refine .append (readsAll_itemParts (x :: xs) _ _ (closed_mark_newline (by decide) rfl _ _) hitems) ?_
    exact .cons (fun _ => (closed_newline level _).reads) (.cons (fun _ => hclose) readsAll_nil)
  | .dict [], level, _ => .cons (fun _ => ⟨⟨123, _, rfl, by decide⟩, .idle, _, [], rfl, rfl, rfl⟩) readsAll_nil
  | .dict (f :: fs), level, h => by
    have hfields : ∀ g ∈ f :: fs, Loaded R g.2 := by
      cases h with
      | dict _ _ h => exact h
    exact readsAll_dict (readsAll_fieldParts (f :: fs) _ _ (closed_newline _ _) hfields)
  | .null, _, _ => readsAll_nil
  | .bool _, _, _ => readsAll_nil
  | .int _, _, _ => readsAll_nil
  | .float _, _, _ => readsAll_nil
  | .str _, _, _ => readsAll_nil

/-- The pieces of items. -/
theorem readsAll_itemParts : ∀ (xs : List Json) (level : ℕ) (sep : Part), sep.Closed R → (∀ x ∈ xs, Loaded R x) →
    ReadsAll R (itemParts level sep xs)
  | [], _, _, _, _ => readsAll_nil
  | x :: xs, level, sep, hsep, h => by
    have hx : Loaded R x := h x List.mem_cons_self
    rw [itemParts_cons]
    refine .append (readsAll_itemHead hsep hx (readsAll_parts x level hx)) ?_
    exact readsAll_itemParts xs level _ (closed_mark_newline (by decide) rfl _ _)
      fun y hy => h y (List.mem_cons_of_mem _ hy)

/-- The pieces of fields. -/
theorem readsAll_fieldParts : ∀ (fs : Fields) (level : ℕ) (sep : Part), sep.Closed R → (∀ f ∈ fs, Loaded R f.2) →
    ReadsAll R (fieldParts level sep fs)
  | [], _, _, _, _ => readsAll_nil
  | (k, v) :: fs, level, sep, hsep, h => by
    have hv : Loaded R v := h (k, v) List.mem_cons_self
    rw [fieldParts_cons]
    refine .cons (fun _ => hsep.reads) (.cons (fun hk => (closed_quoted (encodable_quoted.mp hk) level).reads) ?_)
    refine .append (readsAll_fieldHead hv (readsAll_parts v level hv)) ?_
    exact readsAll_fieldParts fs level _ (closed_mark_newline (by decide) rfl _ _)
      fun g hg => h g (List.mem_cons_of_mem _ hg)

end

/-! ### Reading what is written: values -/

theorem parseRun_append (st : Expect) (ts us : List Token) :
    parseRun st (ts ++ us) = (parseRun st ts).bind fun st' => parseRun st' us := by
  induction ts generalizing st with
  | nil => rfl
  | cons t ts ih =>
    rw [List.cons_append, parseRun, parseRun]
    cases parseStep st t with
    | none => rfl
    | some st' => exact ih st'

theorem tokensOf_append (ps qs : List Part) : tokensOf (ps ++ qs) = tokensOf ps ++ tokensOf qs := List.flatMap_append

/-- The dict of these fields: of equal keys the last counts. -/
def ofPairs (fields : Fields) : Fields := Dict.update id [] fields

theorem ofPairs_of_nodup {fields : Fields} (h : (fields.map Prod.fst).Nodup) : ofPairs fields = fields :=
  Dict.update_of_nodup h

/-- The tokens of a value. -/
def Json.tokens (level : ℕ) : Json → List Token
  | .list xs => tokensOf (Json.parts level (.list xs))
  | .dict fs => tokensOf (Json.parts level (.dict fs))
  | v => [.scalar v]

theorem tokensOf_itemHead (level : ℕ) (sep : Part) (x : Json) :
    tokensOf (itemHead level sep x) = sep.tokens ++ x.tokens level := by
  have hand : ∀ t, tokensOf [sep.and t x] = sep.tokens ++ [.scalar x] := fun t => List.append_nil _
  cases x with
  | null => exact hand _
  | bool b => exact hand _
  | int n => exact hand _
  | float x => exact hand _
  | str s => exact hand _
  | list xs => rfl
  | dict fs => rfl

theorem tokensOf_fieldHead (level : ℕ) (v : Json) : tokensOf (fieldHead level v) = .colon :: v.tokens level := by
  cases v <;> rfl

theorem tokensOf_cons (p : Part) (ps : List Part) : tokensOf (p :: ps) = p.tokens ++ tokensOf ps := rfl

/-- The tokens of a dict, from those of its values. -/
theorem parseRun_fields (v : Json) (fs : Fields) (level : ℕ)
    (hv : ∀ (first : Bool) (stack : List Frame),
      parseRun (.value first stack) (v.tokens (level + 1)) = some (complete stack v))
    (hfs : ∀ (acc : Fields) (stack : List Frame),
      parseRun (.field acc stack)
          (tokensOf (fieldParts (level + 1) ⟨str "," ++ newline (level + 1), [.comma], level + 1⟩ fs)) =
        some (.field (Dict.update id acc fs) stack))
    (k : Str) (first : Bool) (stack : List Frame) :
    parseRun (.value first stack) ((Json.dict ((k, v) :: fs)).tokens level) =
      some (complete stack (.dict (ofPairs ((k, v) :: fs)))) := by
  have hfirst : parseRun (.value false (.dict [] k :: stack)) (v.tokens (level + 1)) =
      some (.field [(k, v)] stack) := hv _ _
  rw [Json.tokens, Json.parts, tokensOf_append, tokensOf_cons, fieldParts_cons, tokensOf_cons, tokensOf_cons,
    tokensOf_append, tokensOf_fieldHead]
  show parseRun (.value false (.dict [] k :: stack)) (v.tokens (level + 1) ++ _ ++ _) = _
  rw [parseRun_append, parseRun_append, hfirst, Option.bind_some, hfs]
  rfl

mutual

/-- The tokens of a value complete it. -/
theorem parseRun_tokens : ∀ (v : Json) (level : ℕ), Loaded R v → ∀ (first : Bool) (stack : List Frame),
    parseRun (.value first stack) (v.tokens level) = some (complete stack v)
  | .null, _, _, _, _ => rfl
  | .bool _, _, _, _, _ => rfl
  | .int _, _, _, _, _ => rfl
  | .float _, _, _, _, _ => rfl
  | .str _, _, _, _, _ => rfl
  | .list [], _, _, _, _ => rfl
  | .dict [], _, _, _, _ => rfl
  | .list (x :: xs), level, h, first, stack => by
    have hitems : ∀ y ∈ x :: xs, Loaded R y := by
      cases h with
      | list _ h => exact h
    have hfirst : parseRun (.value true (.list [] :: stack)) (x.tokens (level + 1)) =
        some (.item ([] ++ [x]) stack) := parseRun_tokens x _ (hitems x List.mem_cons_self) _ _
    have hrest := parseRun_itemParts xs (level + 1) (fun y hy => hitems y (List.mem_cons_of_mem _ hy)) [x] stack
    rw [Json.tokens, Json.parts, tokensOf_append, itemParts_cons, tokensOf_append, tokensOf_itemHead,
      parseRun_append, parseRun_append, List.singleton_append]
    show (((parseRun (.value true (.list [] :: stack)) (x.tokens (level + 1))).bind _).bind _) = _
    rw [hfirst, Option.bind_some, List.nil_append, hrest]
    rfl
  | .dict ((k, v) :: fs), level, h, first, stack => by
    obtain ⟨hnodup, hv, hfs⟩ : (((k, v) :: fs).map Prod.fst).Nodup ∧ Loaded R v ∧ ∀ f ∈ fs, Loaded R f.2 := by
      cases h with
      | dict _ hnodup h => exact ⟨hnodup, h _ List.mem_cons_self, fun f hf => h f (List.mem_cons_of_mem _ hf)⟩
    have hall := parseRun_fields v fs level (parseRun_tokens v _ hv) (parseRun_fieldParts fs _ hfs) k first stack
    rw [hall, ofPairs_of_nodup hnodup]

/-- The tokens of further items. -/
theorem parseRun_itemParts : ∀ (xs : List Json) (level : ℕ), (∀ x ∈ xs, Loaded R x) →
    ∀ (acc : List Json) (stack : List Frame),
      parseRun (.item acc stack) (tokensOf (itemParts level ⟨str "," ++ newline level, [.comma], level⟩ xs)) =
        some (.item (acc ++ xs) stack)
  | [], _, _, acc, _ => by rw [List.append_nil]; rfl
  | x :: xs, level, h, acc, stack => by
    have hfirst : parseRun (.value false (.list acc :: stack)) (x.tokens level) =
        some (.item (acc ++ [x]) stack) := parseRun_tokens x _ (h x List.mem_cons_self) _ _
    have hrest := parseRun_itemParts xs level (fun y hy => h y (List.mem_cons_of_mem _ hy)) (acc ++ [x]) stack
    rw [itemParts_cons, tokensOf_append, tokensOf_itemHead, parseRun_append, List.singleton_append]
    show ((parseRun (.value false (.list acc :: stack)) (x.tokens level)).bind _) = _
    rw [hfirst, Option.bind_some, hrest, List.append_assoc]
    rfl

/-- The tokens of further fields. -/
theorem parseRun_fieldParts : ∀ (fs : Fields) (level : ℕ), (∀ f ∈ fs, Loaded R f.2) →
    ∀ (acc : Fields) (stack : List Frame),
      parseRun (.field acc stack) (tokensOf (fieldParts level ⟨str "," ++ newline level, [.comma], level⟩ fs)) =
        some (.field (Dict.update id acc fs) stack)
  | [], _, _, _, _ => rfl
  | (k, v) :: fs, level, h, acc, stack => by
    have hfirst : parseRun (.value false (.dict acc k :: stack)) (v.tokens level) =
        some (.field (setField acc k v) stack) := parseRun_tokens v _ (h _ List.mem_cons_self) _ _
    have hrest := parseRun_fieldParts fs level (fun f hf => h f (List.mem_cons_of_mem _ hf)) (setField acc k v) stack
    rw [fieldParts_cons, tokensOf_cons, tokensOf_cons, tokensOf_append, tokensOf_fieldHead]
    show parseRun (.value false (.dict acc k :: stack)) (v.tokens level ++ _) = _
    rw [parseRun_append, hfirst, Option.bind_some, hrest]
    rfl

end

end Hawal.Lib.Python
