import Hawal.Lib.JsonDump
import Hawal.Lib.Surrogates

/-!
# JSON text in ASCII

`json.dumps` with `ensure_ascii`, which is its default. What stands between the marks is white space, and
depends on the separators and the indentation (`Layout`).

* `dumpsIn` — the text of a value.
* `loads_dumpsIn` — it is read as this value again, when all strings in it come back from their escapes.
* `sound_of_loads` — the strings of a value that was read from a text do.
-/

namespace Hawal.Lib.Python

variable {R : FloatReader}

/-! ### Strings -/

/-- A character of a string, in ASCII. -/
def asciiChar (c : ℕ) : Str :=
  if c < 127 then escapeChar c else (units c).flatMap fun u => str "\\u" ++ hexDigits 4 u

/-- A string in quotes, in ASCII. -/
def asciiQuoted (s : Str) : Str := 34 :: (s.flatMap asciiChar ++ [34])

/-- A unit is read back from its four digits. -/
theorem lexRun_unit (a : Str) {u : ℕ} (h : u < 0x10000) :
    lexRun R (.string a) (str "\\u" ++ hexDigits 4 u) = some (.string (a ++ [u]), []) := by
  have hstart : lexRun R (.string a) (str "\\u") = some (.hex a 3 0, []) := rfl
  have hvalue : (((0 * 16 + u / 16 / 16 / 16 % 16) * 16 + u / 16 / 16 % 16) * 16 + u / 16 % 16) * 16 + u % 16 = u := by
    omega
  rw [lexRun_append, hstart, Option.bind_some]
  simp only [hexDigits, List.nil_append, List.cons_append, lexRun, lexStep, hexValue_digit, Option.map_some,
    Option.bind_some, List.append_nil]
  rw [hvalue]

theorem lexRun_units (a : Str) {us : Str} (h : ∀ u ∈ us, u < 0x10000) :
    lexRun R (.string a) (us.flatMap fun u => str "\\u" ++ hexDigits 4 u) = some (.string (a ++ us), []) := by
  induction us generalizing a with
  | nil => rw [List.append_nil]; rfl
  | cons u us ih =>
    rw [List.forall_mem_cons] at h
    rw [List.flatMap_cons, lexRun_append, lexRun_unit a h.1, Option.bind_some, ih _ h.2]
    simp

theorem lexRun_asciiChar (a : Str) {c : ℕ} (h : c < 0x110000) :
    lexRun R (.string a) (asciiChar c) = some (.string (a ++ units c), []) := by
  unfold asciiChar
  split
  · rename_i hsmall
    rw [lexRun_escapeChar, units, if_pos (by omega)]
  · exact lexRun_units a (units_lt h)

theorem lexRun_asciiQuoted {s : Str} (h : Sound s) :
    lexRun R .idle (asciiQuoted s) = some (.idle, [.scalar (.str s)]) := by
  have hchars : ∀ (s a : Str), (∀ c ∈ s, c < 0x110000) →
      lexRun R (.string a) (s.flatMap asciiChar) = some (.string (a ++ s.flatMap units), []) := by
    intro s
    induction s with
    | nil => simp [lexRun]
    | cons c s ih =>
      intro a hs
      rw [List.forall_mem_cons] at hs
      rw [List.flatMap_cons, lexRun_append, lexRun_asciiChar a hs.1, Option.bind_some, ih _ hs.2]
      simp
  have hopen : lexRun R .idle (asciiQuoted s) =
      (lexRun R (.string []) (s.flatMap asciiChar ++ [34])).map fun r => (r.1, [] ++ r.2) := rfl
  rw [hopen, lexRun_append, hchars s [] h.unicode, Option.bind_some, List.nil_append]
  show some (Lex.idle, [Token.scalar (.str (joinPairs (s.flatMap units)))]) = _
  rw [joinPairs_units h]

/-! ### Values -/

/-- Only spaces and line feeds. -/
def White (s : Str) : Prop := ∀ c ∈ s, c = 32 ∨ c = 10

instance (s : Str) : Decidable (White s) := inferInstanceAs (Decidable (∀ c ∈ s, c = 32 ∨ c = 10))

/-- What is written between the marks, by the number of lists and dicts that are open. -/
structure Layout where
  /-- After the first bracket of a list or dict, and before the last. -/
  gap : ℕ → Str
  afterComma : ℕ → Str
  afterColon : Str
  white_gap : ∀ level, White (gap level)
  white_afterComma : ∀ level, White (afterComma level)
  white_afterColon : White afterColon

theorem white_newline (level : ℕ) : White (newline level) := by
  intro c hc
  rw [newline, List.mem_cons] at hc
  rcases hc with rfl | hc
  · exact .inr rfl
  · exact .inl (List.eq_of_mem_replicate hc)

namespace Layout

/-- `json.dumps(v)`. -/
def spaced : Layout where
  gap _ := []
  afterComma _ := str " "
  afterColon := str " "
  white_gap _ := List.forall_mem_nil _
  white_afterComma _ := by decide
  white_afterColon := by decide

/-- `json.dumps(v, separators=(",", ":"))`. -/
def compact : Layout where
  gap _ := []
  afterComma _ := []
  afterColon := []
  white_gap _ := List.forall_mem_nil _
  white_afterComma _ := List.forall_mem_nil _
  white_afterColon := List.forall_mem_nil _

/-- `json.dumps(v, indent=2)`. -/
def indented : Layout where
  gap := newline
  afterComma := newline
  afterColon := str " "
  white_gap := white_newline
  white_afterComma := white_newline
  white_afterColon := by decide

end Layout

variable (L : Layout)

mutual

/-- The text of a value that stands in `level` lists and dicts. -/
def Json.textIn (level : ℕ) : Json → Str
  | .str s => asciiQuoted s
  | .list [] => str "[]"
  | .list (x :: xs) =>
    itemsIn (level + 1) (91 :: L.gap (level + 1)) (x :: xs) ++ L.gap level ++ [93]
  | .dict [] => str "\x7b\x7d"
  | .dict (f :: fs) =>
    fieldsIn (level + 1) (123 :: L.gap (level + 1)) (f :: fs) ++ L.gap level ++ [125]
  | v => (wordText v).getD []

/-- The text of items, the first after `sep`. -/
def itemsIn (level : ℕ) (sep : Str) : List Json → Str
  | [] => []
  | x :: xs => sep ++ Json.textIn level x ++ itemsIn level (44 :: L.afterComma level) xs

/-- The text of fields, the first after `sep`. -/
def fieldsIn (level : ℕ) (sep : Str) : Fields → Str
  | [] => []
  | (k, v) :: fs =>
    sep ++ asciiQuoted k ++ 58 :: L.afterColon ++ Json.textIn level v ++ fieldsIn level (44 :: L.afterComma level) fs

end

/-- `json.dumps`. -/
def dumpsIn (v : Json) : Str := v.textIn L 0

example : dumpsIn .spaced (.dict [(str "a", .list [.int 1, .str (str "é")])]) =
    str "\x7b\"a\": [1, \"\\u00e9\"]\x7d" := by decide

example : dumpsIn .compact (.list [.null, .list []]) = str "[null,[]]" := by decide

example : dumpsIn .indented (.list [.bool true]) = str "[\n  true\n]" := by decide

/-- Every string in the value, keys included, is one of these. -/
inductive AllStrings (S : Str → Prop) : Json → Prop where
  | null : AllStrings S .null
  | bool (b : Bool) : AllStrings S (.bool b)
  | int (n : ℤ) : AllStrings S (.int n)
  | float (x : Float64) : AllStrings S (.float x)
  | str {s : Str} (h : S s) : AllStrings S (.str s)
  | list {xs : List Json} (h : ∀ x ∈ xs, AllStrings S x) : AllStrings S (.list xs)
  | dict {fields : Fields} (hkeys : ∀ f ∈ fields, S f.1) (hvalues : ∀ f ∈ fields, AllStrings S f.2) :
    AllStrings S (.dict fields)

theorem allStrings_str {S : Str → Prop} {s : Str} : AllStrings S (.str s) ↔ S s :=
  ⟨fun h => by cases h; assumption, .str⟩

theorem allStrings_list {S : Str → Prop} {xs : List Json} : AllStrings S (.list xs) ↔ ∀ x ∈ xs, AllStrings S x :=
  ⟨fun h => by cases h; assumption, .list⟩

theorem allStrings_dict {S : Str → Prop} {fs : Fields} :
    AllStrings S (.dict fs) ↔ ∀ f ∈ fs, S f.1 ∧ AllStrings S f.2 := by
  constructor
  · intro h f hf
    cases h with
    | dict hkeys hvalues => exact ⟨hkeys f hf, hvalues f hf⟩
  · exact fun h => .dict (fun f hf => (h f hf).1) fun f hf => (h f hf).2

/-! ### Reading what is written -/

/-- The text is read as these tokens. -/
def Lexes (R : FloatReader) (s : Str) (ts : List Token) : Prop :=
  ∃ st us us', lexRun R .idle s = some (st, us) ∧ lexEnd R st = some us' ∧ us ++ us' = ts

/-- And the reader is between tokens then. -/
def Closes (R : FloatReader) (s : Str) (ts : List Token) : Prop := lexRun R .idle s = some (.idle, ts)

/-- The text does not begin inside of a word. -/
def Fresh (s : Str) : Prop := ∀ c ∈ s.head?, isWordChar c = false

theorem Closes.lexes {s : Str} {ts : List Token} (h : Closes R s ts) : Lexes R s ts :=
  ⟨.idle, ts, [], h, rfl, List.append_nil ts⟩

theorem Closes.append {s t : Str} {ts us : List Token} (hs : Closes R s ts) (ht : Closes R t us) :
    Closes R (s ++ t) (ts ++ us) := by
  rw [Closes, lexRun_append, hs, Option.bind_some, ht]
  rfl

theorem Closes.append_lexes {s t : Str} {ts us : List Token} (hs : Closes R s ts) (ht : Lexes R t us) :
    Lexes R (s ++ t) (ts ++ us) := by
  obtain ⟨st, vs, vs', hrun, hend, rfl⟩ := ht
  refine ⟨st, ts ++ vs, vs', ?_, hend, List.append_assoc ..⟩
  rw [lexRun_append, hs, Option.bind_some, hrun]
  rfl

theorem Lexes.append {s t : Str} {ts us : List Token} (hs : Lexes R s ts) (ht : Lexes R t us) (hfresh : Fresh t) :
    Lexes R (s ++ t) (ts ++ us) := by
  obtain ⟨st, vs, vs', hrun, hend, rfl⟩ := hs
  obtain ⟨st', ws, ws', hrun', hend', rfl⟩ := ht
  cases t with
  | nil =>
    cases hrun'
    cases hend'
    exact ⟨st, vs, vs', by rwa [List.append_nil], hend, by simp⟩
  | cons c t =>
    refine ⟨st', vs ++ (vs' ++ ws), ws', ?_, hend', by simp⟩
    rw [lexRun_append, hrun, Option.bind_some, lexRun_of_lexEnd hend (hfresh c rfl), hrun']
    rfl

theorem Lexes.lex {s : Str} {ts : List Token} (h : Lexes R s ts) : lex R s = some ts := by
  obtain ⟨st, us, us', hrun, hend, rfl⟩ := h
  rw [Python.lex, hrun, Option.bind_some, hend]
  rfl

theorem closes_white {s : Str} (h : White s) : Closes R s [] := by
  induction s with
  | nil => rfl
  | cons c s ih =>
    rw [White, List.forall_mem_cons] at h
    have hstep : lexStep R .idle c = some (.idle, []) := by
      rcases h.1 with rfl | rfl <;> rfl
    have hrest : lexRun R .idle s = some (.idle, []) := ih h.2
    rw [Closes, lexRun, hstep, Option.bind_some, hrest]
    rfl

/-- A mark and white space. -/
theorem closes_mark {c : ℕ} {t : Token} (h : lexStep R .idle c = some (.idle, [t])) {s : Str} (hs : White s) :
    Closes R (c :: s) [t] := by
  have hrest : lexRun R .idle s = some (.idle, []) := closes_white hs
  rw [Closes, lexRun, h, Option.bind_some, hrest]
  rfl

theorem closes_asciiQuoted {s : Str} (h : Sound s) : Closes R (asciiQuoted s) [.scalar (.str s)] :=
  lexRun_asciiQuoted h

theorem lexes_word {w : Str} {v : Json} (h : WordFor R w v) : Lexes R w [.scalar v] := by
  refine ⟨.word w, [], [.scalar v], lexRun_idle_word h.nonempty h.chars, ?_, rfl⟩
  rw [lexEnd, h.read]
  rfl

theorem fresh_append {s t : Str} (hs : Fresh s) (ht : Fresh t) : Fresh (s ++ t) := by
  cases s with
  | nil => exact ht
  | cons c s => exact hs

theorem fresh_white {s : Str} (h : White s) : Fresh s := by
  intro c hc
  rcases h c (List.mem_of_mem_head? hc) with rfl | rfl <;> rfl

/-- The white space before the last bracket, and the bracket. -/
theorem closes_end {c : ℕ} {t : Token} (h : lexStep R .idle c = some (.idle, [t])) (level : ℕ) :
    Closes R (L.gap level ++ [c]) [t] :=
  (closes_white (L.white_gap level)).append (closes_mark h (List.forall_mem_nil _))

theorem fresh_end {c : ℕ} (h : isWordChar c = false) (level : ℕ) : Fresh (L.gap level ++ [c]) := by
  refine fresh_append (fresh_white (L.white_gap level)) fun d hd => ?_
  cases hd
  exact h

theorem fresh_itemsIn (level : ℕ) {c : ℕ} (h : isWordChar c = false) (sep : Str) (xs : List Json) :
    Fresh (itemsIn L level (c :: sep) xs) := by
  cases xs with
  | nil => exact fun d hd => nomatch hd
  | cons x xs =>
    rw [itemsIn]
    intro d hd
    cases hd
    exact h

theorem fresh_fieldsIn (level : ℕ) {c : ℕ} (h : isWordChar c = false) (sep : Str) (fs : Fields) :
    Fresh (fieldsIn L level (c :: sep) fs) := by
  cases fs with
  | nil => exact fun d hd => nomatch hd
  | cons f fs =>
    rw [fieldsIn]
    intro d hd
    cases hd
    exact h

theorem tokensOf_itemParts (m : ℕ) (sep : Part) (x : Json) (xs : List Json) :
    tokensOf (itemParts m sep (x :: xs)) = sep.tokens ++ x.tokens m ++
      tokensOf (itemParts m ⟨str "," ++ newline m, [.comma], m⟩ xs) := by
  rw [itemParts_cons, tokensOf_append, tokensOf_itemHead]

theorem tokensOf_fieldParts (m : ℕ) (sep : Part) (k : Str) (v : Json) (fs : Fields) :
    tokensOf (fieldParts m sep ((k, v) :: fs)) = sep.tokens ++ [.scalar (.str k)] ++ [.colon] ++ v.tokens m ++
      tokensOf (fieldParts m ⟨str "," ++ newline m, [.comma], m⟩ fs) := by
  rw [fieldParts_cons, tokensOf_cons, tokensOf_cons, tokensOf_append, tokensOf_fieldHead]
  simp

mutual

theorem lexes_textIn : ∀ (v : Json) (level m : ℕ), Loaded R v → AllStrings Sound v →
    Lexes R (v.textIn L level) (v.tokens m)
  | .null, _, _, h, _ => lexes_word (wordFor_wordText h rfl)
  | .bool _, _, _, h, _ => lexes_word (wordFor_wordText h rfl)
  | .int _, _, _, h, _ => lexes_word (wordFor_wordText h rfl)
  | .float _, _, _, h, _ => lexes_word (wordFor_wordText h rfl)
  | .str _, _, _, _, hs => (closes_asciiQuoted (allStrings_str.mp hs)).lexes
  | .list [], _, _, _, _ => (show Closes R (str "[]") [.lbracket, .rbracket] from rfl).lexes
  | .dict [], _, _, _, _ => (show Closes R (str "\x7b\x7d") [.lbrace, .rbrace] from rfl).lexes
  | .list (x :: xs), level, m, h, hs => by
    have hitems : ∀ y ∈ x :: xs, Loaded R y := by
      cases h with
      | list _ h => exact h
    have hopen : Closes R (91 :: L.gap (level + 1)) [.lbracket] := closes_mark rfl (L.white_gap _)
    have hall := lexes_itemsIn (x :: xs) (level + 1) (m + 1) hopen
      ⟨str "[" ++ newline (m + 1), [.lbracket], m + 1⟩ rfl hitems (allStrings_list.mp hs)
    have hend : Closes R (L.gap level ++ [93]) [.rbracket] := closes_end L rfl level
    rw [Json.textIn, List.append_assoc, Json.tokens, Json.parts, tokensOf_append]
    exact hall.append hend.lexes (fresh_end L rfl level)
  | .dict ((k, v) :: fs), level, m, h, hs => by
    have hfields : ∀ g ∈ (k, v) :: fs, Loaded R g.2 := by
      cases h with
      | dict _ _ h => exact h
    have hopen : Closes R (123 :: L.gap (level + 1)) [.lbrace] := closes_mark rfl (L.white_gap _)
    have hall := lexes_fieldsIn ((k, v) :: fs) (level + 1) (m + 1) hopen ⟨str "\x7b", [.lbrace], m + 1⟩ rfl hfields
      (allStrings_dict.mp hs)
    have hend : Closes R (L.gap level ++ [125]) [.rbrace] := closes_end L rfl level
    have htokens : (Json.dict ((k, v) :: fs)).tokens m =
        tokensOf (fieldParts (m + 1) ⟨str "\x7b", [.lbrace], m + 1⟩ ((k, v) :: fs)) ++ [.rbrace] := by
      rw [Json.tokens, Json.parts, List.cons_append, tokensOf_cons, tokensOf_append, tokensOf_fieldParts,
        tokensOf_fieldParts]
      simp [tokensOf]
    rw [Json.textIn, List.append_assoc, htokens]
    exact hall.append hend.lexes (fresh_end L rfl level)

theorem lexes_itemsIn : ∀ (xs : List Json) (level m : ℕ) {sep : Str} {ts : List Token}, Closes R sep ts →
    ∀ p : Part, p.tokens = ts → (∀ x ∈ xs, Loaded R x) → (∀ x ∈ xs, AllStrings Sound x) →
      Lexes R (itemsIn L level sep xs) (tokensOf (itemParts m p xs))
  | [], _, _, _, _, _, _, _, _, _ => (show Closes R [] [] from rfl).lexes
  | x :: xs, level, m, sep, ts, hsep, p, hp, h, hs => by
    rw [List.forall_mem_cons] at h hs
    have hcomma : Closes R (44 :: L.afterComma level) [.comma] := closes_mark rfl (L.white_afterComma _)
    have hrest := lexes_itemsIn xs level m hcomma ⟨str "," ++ newline m, [.comma], m⟩ rfl h.2 hs.2
    rw [itemsIn, tokensOf_itemParts, hp]
    exact (hsep.append_lexes (lexes_textIn x level m h.1 hs.1)).append hrest (fresh_itemsIn L level rfl _ xs)

theorem lexes_fieldsIn : ∀ (fs : Fields) (level m : ℕ) {sep : Str} {ts : List Token}, Closes R sep ts →
    ∀ p : Part, p.tokens = ts → (∀ f ∈ fs, Loaded R f.2) → (∀ f ∈ fs, Sound f.1 ∧ AllStrings Sound f.2) →
      Lexes R (fieldsIn L level sep fs) (tokensOf (fieldParts m p fs))
  | [], _, _, _, _, _, _, _, _, _ => (show Closes R [] [] from rfl).lexes
  | (k, v) :: fs, level, m, sep, ts, hsep, p, hp, h, hs => by
    rw [List.forall_mem_cons] at h hs
    have hcomma : Closes R (44 :: L.afterComma level) [.comma] := closes_mark rfl (L.white_afterComma _)
    have hcolon : Closes R (58 :: L.afterColon) [.colon] := closes_mark rfl L.white_afterColon
    have hrest := lexes_fieldsIn fs level m hcomma ⟨str "," ++ newline m, [.comma], m⟩ rfl h.2 hs.2
    have hkey : Closes R (sep ++ asciiQuoted k) (ts ++ [.scalar (.str k)]) :=
      hsep.append (closes_asciiQuoted hs.1.1)
    rw [fieldsIn, tokensOf_fieldParts, hp]
    exact ((hkey.append hcolon).append_lexes (lexes_textIn v level m h.1 hs.1.2)).append hrest
      (fresh_fieldsIn L level rfl _ fs)

end

/-- What `json.dumps` writes is read as the same value. -/
theorem loads_dumpsIn {v : Json} (h : Loaded R v) (hs : AllStrings Sound v) : loads R (dumpsIn L v) = some v := by
  have hlex : lex R (dumpsIn L v) = some (v.tokens 0) := (lexes_textIn L v 0 0 h hs).lex
  have hparse : parseRun (.value false []) (v.tokens 0) = some (.done v) := parseRun_tokens v 0 h false []
  rw [loads, hlex, Option.bind_some, parse, hparse]

/-! ### What is read -/

/-- The reader has only code points. -/
def Lex.Unicode : Lex → Prop
  | .idle => True
  | .word _ => True
  | .string s => Python.Unicode s
  | .escape s => Python.Unicode s
  | .hex s k n => Python.Unicode s ∧ k ≤ 3 ∧ n < 16 ^ (3 - k)

/-- The strings among these tokens can be written. -/
def TokensSound (ts : List Token) : Prop := ∀ v, Token.scalar v ∈ ts → AllStrings Sound v

theorem tokensSound_nil : TokensSound [] := fun v hv => by cases hv

theorem tokensSound_cons {t : Token} {ts : List Token} : TokensSound (t :: ts) ↔ TokensSound [t] ∧ TokensSound ts := by
  constructor
  · intro h
    exact ⟨fun v hv => h v (by simp_all), fun v hv => h v (List.mem_cons_of_mem _ hv)⟩
  · rintro ⟨ht, hts⟩ v hv
    rcases List.mem_cons.mp hv with rfl | hv
    · exact ht v (List.mem_singleton.mpr rfl)
    · exact hts v hv

theorem tokensSound_append {ts us : List Token} : TokensSound (ts ++ us) ↔ TokensSound ts ∧ TokensSound us := by
  induction ts with
  | nil => exact (and_iff_right tokensSound_nil).symm
  | cons t ts ih => rw [List.cons_append, tokensSound_cons, ih, ← and_assoc, ← tokensSound_cons]

theorem tokensSound_scalar {v : Json} : TokensSound [.scalar v] ↔ AllStrings Sound v := by
  constructor
  · exact fun h => h v (List.mem_singleton.mpr rfl)
  · intro h w hw
    cases List.mem_singleton.mp hw
    exact h

theorem allStrings_of_readWord {S : Str → Prop} {w : Str} {v : Json} (h : readWord R w = some v) : AllStrings S v := by
  unfold readWord at h
  split at h
  · cases h
    exact .null
  split at h
  · cases h
    exact .bool true
  split at h
  · cases h
    exact .bool false
  split at h
  · obtain ⟨n, -, rfl⟩ := Option.map_eq_some_iff.mp h
    exact .int n
  split at h
  · cases h
    exact .float _
  · cases h

theorem tokensSound_mark {c : ℕ} {ts : List Token} (h : mark c = some ts) : TokensSound ts := by
  intro v hv
  have hscalar : ∀ w, Token.scalar w ∉ ts := by
    intro w hw
    unfold mark at h
    repeat' split at h
    all_goals
      cases h <;> simp at hw
  exact (hscalar v hv).elim

theorem unicode_lexIdle {c : ℕ} {r : Lex × List Token} (h : lexIdle c = some r) : r.1.Unicode ∧ TokensSound r.2 := by
  unfold lexIdle at h
  split at h
  · cases h
    exact ⟨List.forall_mem_nil _, tokensSound_nil⟩
  split at h
  · cases h
    exact ⟨trivial, tokensSound_nil⟩
  · obtain ⟨ts, hts, rfl⟩ := Option.map_eq_some_iff.mp h
    exact ⟨trivial, tokensSound_mark hts⟩

theorem hexValue_lt {c d : ℕ} (h : hexValue c = some d) : d < 16 := by
  unfold hexValue at h
  split at h
  · obtain rfl := Option.some.inj h
    omega
  split at h
  · obtain rfl := Option.some.inj h
    omega
  split at h
  · obtain rfl := Option.some.inj h
    omega
  · cases h

theorem unescape_lt {c d : ℕ} (h : unescape c = some d) : d < 0x110000 := by
  unfold unescape at h
  repeat' split at h
  all_goals
    simp only [Option.some.injEq, reduceCtorEq] at h
  all_goals omega

theorem unicode_concat {s : Str} (h : Unicode s) {d : ℕ} (hd : d < 0x110000) : Unicode (s ++ [d]) :=
  h.append (List.forall_mem_singleton.mpr hd)

theorem unicode_lexStep {st : Lex} (hst : st.Unicode) {c : ℕ} (hc : c < 0x110000) {r : Lex × List Token}
    (h : lexStep R st c = some r) : r.1.Unicode ∧ TokensSound r.2 := by
  cases st with
  | idle => exact unicode_lexIdle h
  | word w =>
    rw [lexStep] at h
    split at h
    · cases h
      exact ⟨trivial, tokensSound_nil⟩
    · obtain ⟨v, hv, hrest⟩ := Option.bind_eq_some_iff.mp h
      obtain ⟨r', hr', rfl⟩ := Option.map_eq_some_iff.mp hrest
      obtain ⟨hstate, htokens⟩ := unicode_lexIdle hr'
      exact ⟨hstate, tokensSound_cons.mpr ⟨tokensSound_scalar.mpr (allStrings_of_readWord hv), htokens⟩⟩
  | string s =>
    rw [lexStep] at h
    split at h
    · cases h
      exact ⟨trivial, tokensSound_scalar.mpr (.str (sound_joinPairs hst))⟩
    split at h
    · cases h
      exact ⟨hst, tokensSound_nil⟩
    split at h
    · cases h
    · cases h
      exact ⟨unicode_concat hst hc, tokensSound_nil⟩
  | escape s =>
    rw [lexStep] at h
    split at h
    · cases h
      exact ⟨⟨hst, le_rfl, Nat.one_pos⟩, tokensSound_nil⟩
    · obtain ⟨d, hd, rfl⟩ := Option.map_eq_some_iff.mp h
      exact ⟨unicode_concat hst (unescape_lt hd), tokensSound_nil⟩
  | hex s k n =>
    obtain ⟨d, hd, rfl⟩ := Option.map_eq_some_iff.mp h
    obtain ⟨hs, hk, hn⟩ := hst
    have hdigit := hexValue_lt hd
    cases k with
    | zero =>
      have hpow : 16 ^ (3 - 0) = 4096 := rfl
      have hvalue : n * 16 + d < 0x110000 := by omega
      exact ⟨unicode_concat hs hvalue, tokensSound_nil⟩
    | succ k =>
      have hpow : 16 ^ (3 - k) = 16 ^ (3 - (k + 1)) * 16 := by
        rw [← pow_succ]
        congr 1
        omega
      exact ⟨⟨hs, by omega, by omega⟩, tokensSound_nil⟩

theorem unicode_lexRun {s : Str} (hs : Unicode s) {st : Lex} (hst : st.Unicode) {r : Lex × List Token}
    (h : lexRun R st s = some r) : r.1.Unicode ∧ TokensSound r.2 := by
  induction s generalizing st r with
  | nil =>
    cases h
    exact ⟨hst, tokensSound_nil⟩
  | cons c s ih =>
    rw [Unicode, List.forall_mem_cons] at hs
    obtain ⟨r₁, hstep, hrest⟩ := Option.bind_eq_some_iff.mp h
    obtain ⟨r₂, hrun, rfl⟩ := Option.map_eq_some_iff.mp hrest
    obtain ⟨hfirst, htokens⟩ := unicode_lexStep hst hs.1 hstep
    obtain ⟨hlast, hothers⟩ := ih hs.2 hfirst hrun
    exact ⟨hlast, tokensSound_append.mpr ⟨htokens, hothers⟩⟩

theorem tokensSound_lex {s : Str} (hs : Unicode s) {ts : List Token} (h : lex R s = some ts) :
    TokensSound ts := by
  obtain ⟨r, hrun, hrest⟩ := Option.bind_eq_some_iff.mp h
  obtain ⟨us, hend, rfl⟩ := Option.map_eq_some_iff.mp hrest
  have hidle : Lex.idle.Unicode := trivial
  refine tokensSound_append.mpr ⟨(unicode_lexRun hs hidle hrun).2, ?_⟩
  cases hst : r.1 with
  | idle =>
    rw [hst] at hend
    cases hend
    exact tokensSound_nil
  | word w =>
    rw [hst] at hend
    obtain ⟨v, hv, rfl⟩ := Option.map_eq_some_iff.mp hend
    exact tokensSound_scalar.mpr (allStrings_of_readWord hv)
  | string s => rw [hst] at hend; cases hend
  | escape s => rw [hst] at hend; cases hend
  | hex s k n => rw [hst] at hend; cases hend

/-- The keys and values of fields. -/
def FieldsSound (fields : Fields) : Prop := ∀ f ∈ fields, Sound f.1 ∧ AllStrings Sound f.2

/-- The list or dict has only strings that can be written so far. -/
def Frame.Sound : Frame → Prop
  | .list xs => ∀ x ∈ xs, AllStrings Python.Sound x
  | .dict fields k => FieldsSound fields ∧ Python.Sound k

/-- What there is so far has only strings that can be written. -/
def Expect.Sound : Expect → Prop
  | .value _ stack => ∀ f ∈ stack, f.Sound
  | .key _ fields stack => FieldsSound fields ∧ ∀ f ∈ stack, f.Sound
  | .colon fields k stack => (FieldsSound fields ∧ Python.Sound k) ∧ ∀ f ∈ stack, f.Sound
  | .item xs stack => (∀ x ∈ xs, AllStrings Python.Sound x) ∧ ∀ f ∈ stack, f.Sound
  | .field fields stack => FieldsSound fields ∧ ∀ f ∈ stack, f.Sound
  | .done v => AllStrings Python.Sound v

theorem fieldsSound_setField {fields : Fields} (h : FieldsSound fields) {k : Str} (hk : Sound k) {v : Json}
    (hv : AllStrings Sound v) : FieldsSound (setField fields k v) := by
  induction fields with
  | nil => exact List.forall_mem_singleton.mpr ⟨hk, hv⟩
  | cons f fields ih =>
    rw [FieldsSound, List.forall_mem_cons] at h
    rw [setField, Dict.set]
    split
    · exact List.forall_mem_cons.mpr ⟨⟨h.1.1, hv⟩, h.2⟩
    · exact List.forall_mem_cons.mpr ⟨h.1, ih h.2⟩

theorem sound_complete {stack : List Frame} (hstack : ∀ f ∈ stack, f.Sound) {v : Json} (hv : AllStrings Sound v) :
    (complete stack v).Sound := by
  cases stack with
  | nil => exact hv
  | cons f stack =>
    rw [List.forall_mem_cons] at hstack
    cases f with
    | list xs => exact ⟨List.forall_mem_append.mpr ⟨hstack.1, List.forall_mem_singleton.mpr hv⟩, hstack.2⟩
    | dict fields k => exact ⟨fieldsSound_setField hstack.1.1 hstack.1.2 hv, hstack.2⟩

theorem sound_parseStep {st st' : Expect} (hst : st.Sound) {t : Token} (ht : TokensSound [t])
    (h : parseStep st t = some st') : st'.Sound := by
  unfold parseStep at h
  split at h
  · cases h
    exact sound_complete hst (tokensSound_scalar.mp ht)
  · cases h
    exact List.forall_mem_cons.mpr ⟨List.forall_mem_nil _, hst⟩
  · cases h
    exact ⟨List.forall_mem_nil _, hst⟩
  · cases h
    exact sound_complete (List.forall_mem_cons.mp hst).2 (.list (List.forall_mem_nil _))
  · cases h
    exact ⟨⟨hst.1, allStrings_str.mp (tokensSound_scalar.mp ht)⟩, hst.2⟩
  · cases h
    exact sound_complete hst.2 (allStrings_dict.mpr hst.1)
  · cases h
    exact List.forall_mem_cons.mpr hst
  · cases h
    exact List.forall_mem_cons.mpr hst
  · cases h
    exact sound_complete hst.2 (.list hst.1)
  · cases h
    exact hst
  · cases h
    exact sound_complete hst.2 (allStrings_dict.mpr hst.1)
  · cases h

theorem sound_parseRun {ts : List Token} {st st' : Expect} (hst : st.Sound) (ht : TokensSound ts)
    (h : parseRun st ts = some st') : st'.Sound := by
  induction ts generalizing st with
  | nil =>
    cases h
    exact hst
  | cons t ts ih =>
    rw [tokensSound_cons] at ht
    obtain ⟨st₁, hstep, hrun⟩ := Option.bind_eq_some_iff.mp h
    exact ih (sound_parseStep hst ht.1 hstep) ht.2 hrun

/-- A value that was read from code points can be written and read again. -/
theorem sound_of_loads {s : Str} (hs : Unicode s) {v : Json} (h : loads R s = some v) : AllStrings Sound v := by
  obtain ⟨ts, hlex, hparse⟩ := Option.bind_eq_some_iff.mp h
  have hts : TokensSound ts := tokensSound_lex hs hlex
  have hstart : Expect.Sound (.value false []) := List.forall_mem_nil _
  unfold parse at hparse
  split at hparse
  · rename_i w hrun
    cases hparse
    exact sound_parseRun hstart hts hrun
  · cases hparse

end Hawal.Lib.Python
