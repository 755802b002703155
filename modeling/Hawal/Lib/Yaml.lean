import Hawal.Lib.Toml
import Hawal.Lib.Url

/-!
# YAML, as far as blocks of keys on single lines go

`Yaml.read` reads mappings, and sequences of mappings, that are told apart by how far their lines are indented. A key
is followed by its value on the same line, or by a block that is indented further. Values are strings between
quotation marks without any escapes, integers, and lists of such strings between brackets; there can be empty lines
and lines with comments. A document with anything else in it is not read, and neither is one in which a mapping has a
key twice.

A text is cut into its lines first (`readLine`), which are then put together one after the other (`readStep`).
-/

namespace Hawal.Lib.Yaml

open Hawal.Lib.Python

/-! ### Values -/

/-- The characters that stand for themselves between quotation marks. -/
def isPlainChar (c : ℕ) : Bool :=
  (c == 9 || (32 ≤ c && c < 127) || (0xA0 ≤ c && c < 0xD800) || (0xE000 ≤ c && c < 0xFFFE) ||
    (0x10000 ≤ c && c < 0x110000)) && c != 34 && c != 92 && c != 0x2028 && c != 0x2029 && c != 0xFEFF

/-- Such characters only: no quotation mark, no backslash, no control character but the tab, and nothing that ends a
line. -/
def Plain (s : Str) : Prop := ∀ c ∈ s, isPlainChar c = true

instance (s : Str) : Decidable (Plain s) := inferInstanceAs (Decidable (∀ c ∈ s, isPlainChar c = true))

/-- The values that are read. -/
inductive Value where
  | string (s : Str)
  | int (n : ℤ)
  | list (vs : List Str)
  deriving DecidableEq

/-- `"…"`, and what follows it. -/
def readQuoted : Str → Option (Str × Str)
  | 34 :: s =>
    match s.dropWhile isPlainChar with
    | 34 :: rest => some (s.takeWhile isPlainChar, rest)
    | _ => none
  | _ => none

/-- One string in a list. -/
def readItem (s : Str) : Option Str :=
  (readQuoted (s.dropWhile (· == 32))).bind fun q => if q.2.all (· == 32) then some q.1 else none

/-- A value, up to the end of the line. Integers are spelled as in TOML. -/
def readValue (s : Str) : Option Value :=
  match s with
  | 34 :: _ => (readItem s).map .string
  | 91 :: rest =>
    if rest.getLast? = some 93 then ((rest.dropLast.splitOn 44).mapM readItem).map .list else none
  | _ =>
    match Toml.readWord s with
    | some (.int n) => some (.int n)
    | _ => none

/-! ### Lines -/

/-- A line with a key: how far it is indented, whether it begins an item of a sequence, and the value, when that is
on the line. -/
structure Line where
  indent : ℕ
  dash : Bool
  key : Str
  value : Option Value
  deriving DecidableEq

/-- What keys are made of. -/
def isKeyChar (c : ℕ) : Bool := (65 ≤ c && c ≤ 90) || (97 ≤ c && c ≤ 122) || (48 ≤ c && c ≤ 57) || c == 95

/-- A key, and its value when it is there. -/
def readEntry (s : Str) : Option (Str × Option Value) :=
  if s.head?.any isKeyChar then
    match s.dropWhile isKeyChar with
    | [58] => some (s.takeWhile isKeyChar, none)
    | 58 :: 32 :: v => (readValue v).map fun v => (s.takeWhile isKeyChar, some v)
    | _ => none
  else none

/-- What is on a line after its spaces: nothing when it is empty or a comment. -/
def readBody (indent : ℕ) : Str → Option (Option Line)
  | [] => some none
  | 35 :: _ => some none
  | 45 :: 32 :: rest => (readEntry rest).map fun e => some ⟨indent, true, e.1, e.2⟩
  | rest => (readEntry rest).map fun e => some ⟨indent, false, e.1, e.2⟩

/-- What is on a line. -/
def readLine (s : Str) : Option (Option Line) :=
  readBody (s.takeWhile (· == 32)).length (s.dropWhile (· == 32))

/-! ### Documents -/

/-- One step from a block to what is in it. -/
inductive Step where
  | key (k : Str)
  | item (n : ℕ)
  deriving DecidableEq

/-- Where a value is: the keys and items that lead to it. -/
abbrev Path := List Step

/-- A document: its values, each with where it is. -/
abbrev Document := List (Path × Value)

/-- The value at a place. -/
def Document.get (doc : Document) (path : Path) : Option Value :=
  (doc.find? fun e => decide (e.1 = path)).map Prod.snd

/-- What a block has in it so far: the keys of a mapping, or how many items of a sequence. -/
inductive Contents where
  | mapping (keys : List Str)
  | sequence (items : ℕ)

/-- A block that is open. -/
structure Block where
  indent : ℕ
  path : Path
  contents : Contents

/-- A document as far as it is read: the blocks that are open, the inmost first, and the key that still needs a
block. -/
structure Reading where
  entries : Document
  blocks : List Block
  pending : Option Path

/-- The block that a line of this indentation goes on with, before the blocks around it; after a key without a value
it is a new one. -/
def openAt (r : Reading) (indent : ℕ) (new : Contents) : Option (List Block) :=
  match r.pending with
  | some path =>
    if r.blocks.all fun b => b.indent < indent then some (⟨indent, path, new⟩ :: r.blocks) else none
  | none =>
    let blocks := r.blocks.dropWhile fun b => decide (indent < b.indent)
    if blocks.head?.map Block.indent = some indent then some blocks else none

/-- Another item of the inmost sequence. -/
def addItem : List Block → Option (List Block)
  | ⟨indent, path, .sequence n⟩ :: blocks =>
    some (⟨indent + 2, path ++ [.item n], .mapping []⟩ :: ⟨indent, path, .sequence (n + 1)⟩ :: blocks)
  | _ => none

/-- Another key of the inmost mapping. -/
def addKey (entries : Document) (blocks : List Block) (key : Str) (value : Option Value) : Option Reading :=
  match blocks with
  | ⟨indent, path, .mapping keys⟩ :: blocks =>
    if key ∈ keys then none
    else
      let blocks := ⟨indent, path, .mapping (keys ++ [key])⟩ :: blocks
      match value with
      | some v => some ⟨entries ++ [(path ++ [.key key], v)], blocks, none⟩
      | none => some ⟨entries, blocks, some (path ++ [.key key])⟩
  | _ => none

/-- One line with a key. -/
def addLine (r : Reading) (l : Line) : Option Reading :=
  (openAt r l.indent (if l.dash then .sequence 0 else .mapping [])).bind fun blocks =>
    (if l.dash then addItem blocks else some blocks).bind fun blocks => addKey r.entries blocks l.key l.value

/-- One line. -/
def readStep (r : Reading) (s : Str) : Option Reading :=
  match readLine s with
  | none => none
  | some none => some r
  | some (some l) => addLine r l

/-- The reader before a text. -/
def start : Reading := ⟨[], [⟨0, [], .mapping []⟩], none⟩

/-- The document that a text is. -/
def read (s : Str) : Option Document :=
  ((s.splitOn 10).foldlM readStep start).bind fun r => if r.pending.isNone then some r.entries else none

/-! ### Reading what was written -/

/-- `"…"` around the text. -/
def quoted (v : Str) : Str := 34 :: (v ++ [34])

theorem readQuoted_of_plain {v : Str} (h : Plain v) (rest : Str) : readQuoted (quoted v ++ rest) = some (v, rest) := by
  have hquote : ¬ isPlainChar 34 = true := by decide
  have htext : quoted v ++ rest = 34 :: (v ++ 34 :: rest) := by simp [quoted]
  have hdrop : (v ++ 34 :: rest).dropWhile isPlainChar = 34 :: rest := by
    rw [List.dropWhile_append_of_pos h, List.dropWhile_cons_of_neg hquote]
  have htake : (v ++ 34 :: rest).takeWhile isPlainChar = v := by
    rw [List.takeWhile_append_of_pos h, List.takeWhile_cons_of_neg hquote, List.append_nil]
  rw [htext, readQuoted, hdrop, htake]
  rfl

theorem readValue_quoted {v : Str} (h : Plain v) : readValue (quoted v) = some (.string v) := by
  have hitem : readItem (quoted v) = some v := by
    have hspace : (quoted v).dropWhile (· == 32) = quoted v := List.dropWhile_cons_of_neg (by decide)
    have hread := readQuoted_of_plain h []
    rw [List.append_nil] at hread
    rw [readItem, hspace, hread]
    rfl
  show (readItem (quoted v)).map Value.string = _
  rw [hitem]
  rfl

theorem readValue_decimal (n : ℤ) : readValue (decimal n) = some (.int n) := by
  have hchar : ∀ c ∈ decimal n, c ≠ 34 ∧ c ≠ 91 := by
    intro c hc
    rcases mem_decimal hc with rfl | hdigit
    · decide
    · have hhi := hdigit.2
      have hlo := hdigit.1
      omega
  unfold readValue
  split
  · rename_i rest heq
    exact absurd rfl (hchar 34 (heq ▸ List.mem_cons_self)).1
  · rename_i rest heq
    exact absurd rfl (hchar 91 (heq ▸ List.mem_cons_self)).2
  · rw [Toml.readWord_decimal]

/-- A name that can be a key. -/
def IsKey (key : Str) : Prop := key ≠ [] ∧ ∀ c ∈ key, isKeyChar c = true

instance (key : Str) : Decidable (IsKey key) := inferInstanceAs (Decidable (_ ∧ _))

/-- `key: s`. -/
def entry (key s : Str) : Str := key ++ 58 :: 32 :: s

variable {key s : Str} {v : Value}

theorem readEntry_entry (hkey : IsKey key) (hv : readValue s = some v) : readEntry (entry key s) = some (key, some v) := by
  obtain ⟨hne, hchars⟩ := hkey
  have hcolon : ¬ isKeyChar 58 = true := by decide
  have hhead : (entry key s).head?.any isKeyChar = true := by
    obtain ⟨c, key, rfl⟩ := List.exists_cons_of_ne_nil hne
    exact hchars c List.mem_cons_self
  have hdrop : (entry key s).dropWhile isKeyChar = 58 :: 32 :: s := by
    rw [entry, List.dropWhile_append_of_pos hchars, List.dropWhile_cons_of_neg hcolon]
  have htake : (entry key s).takeWhile isKeyChar = key := by
    rw [entry, List.takeWhile_append_of_pos hchars, List.takeWhile_cons_of_neg hcolon, List.append_nil]
  rw [readEntry, if_pos hhead, hdrop, htake]
  show (readValue s).map _ = _
  rw [hv]
  rfl

theorem readLine_indented {rest : Str} (n : ℕ) (h : rest.head? ≠ some 32) :
    readLine (List.replicate n 32 ++ rest) = readBody n rest := by
  have hspaces : ∀ c ∈ List.replicate n 32, (c == 32) = true := by
    intro c hc
    rw [(List.mem_replicate.mp hc).2]
    rfl
  have hdrop : (List.replicate n 32 ++ rest).dropWhile (· == 32) = rest := by
    rw [List.dropWhile_append_of_pos hspaces]
    cases rest with
    | nil => rfl
    | cons c rest =>
      refine List.dropWhile_cons_of_neg fun hc => h ?_
      rw [eq_of_beq hc]
      rfl
  have htake : (List.replicate n 32 ++ rest).takeWhile (· == 32) = List.replicate n 32 := by
    rw [List.takeWhile_append_of_pos hspaces]
    cases rest with
    | nil => rw [List.takeWhile_nil, List.append_nil]
    | cons c rest =>
      rw [List.takeWhile_cons_of_neg, List.append_nil]
      intro hc
      refine h ?_
      rw [eq_of_beq hc]
      rfl
  rw [readLine, hdrop, htake, List.length_replicate]

/-- A line of a mapping. -/
theorem readLine_entry (n : ℕ) (hkey : IsKey key) (hv : readValue s = some v) :
    readLine (List.replicate n 32 ++ entry key s) = some (some ⟨n, false, key, some v⟩) := by
  obtain ⟨c, tail, hcons⟩ := List.exists_cons_of_ne_nil hkey.1
  have hc : isKeyChar c = true := hkey.2 c (hcons ▸ List.mem_cons_self)
  have hentry : entry key s = c :: (tail ++ 58 :: 32 :: s) := by rw [entry, hcons, List.cons_append]
  have hread := readEntry_entry hkey hv
  rw [hentry] at hread ⊢
  rw [readLine_indented n]
  · unfold readBody
    split
    · rename_i h
      cases h
    · rename_i h
      rw [(List.cons.inj h).1] at hc
      exact absurd hc (by decide)
    · rename_i h
      rw [(List.cons.inj h).1] at hc
      exact absurd hc (by decide)
    · rw [hread]
      rfl
  · intro h
    cases h
    exact absurd hc (by decide)

/-- The first line of an item. -/
theorem readLine_item (n : ℕ) (hkey : IsKey key) (hv : readValue s = some v) :
    readLine (List.replicate n 32 ++ 45 :: 32 :: entry key s) = some (some ⟨n, true, key, some v⟩) := by
  have hhead : (45 :: 32 :: entry key s).head? ≠ some 32 := fun h => absurd (Option.some.inj h) (by decide)
  rw [readLine_indented n hhead]
  show (readEntry (entry key s)).map _ = _
  rw [readEntry_entry hkey hv]
  rfl

/-! ### What came before -/

/-- The reader, when the values of `doc` came before. -/
def Reading.after (doc : Document) (r : Reading) : Reading := { r with entries := doc ++ r.entries }

theorem addKey_after (doc entries : Document) (blocks : List Block) (key : Str) (value : Option Value) :
    addKey (doc ++ entries) blocks key value = (addKey entries blocks key value).map (Reading.after doc) := by
  cases blocks with
  | nil => rfl
  | cons b blocks =>
    obtain ⟨indent, path, contents⟩ := b
    cases contents with
    | sequence n => rfl
    | mapping keys =>
      rw [addKey, addKey]
      split_ifs
      · rfl
      · cases value with
        | none => rfl
        | some v =>
          show some _ = some _
          rw [List.append_assoc]
          rfl

theorem addLine_after (doc : Document) (r : Reading) (l : Line) :
    addLine (r.after doc) l = (addLine r l).map (Reading.after doc) := by
  have hopen : ∀ new, openAt (r.after doc) l.indent new = openAt r l.indent new := fun _ => rfl
  have hkey : ∀ blocks, addKey (r.after doc).entries blocks l.key l.value =
      (addKey r.entries blocks l.key l.value).map (Reading.after doc) :=
    fun blocks => addKey_after doc r.entries blocks l.key l.value
  simp only [addLine, hopen, hkey, Option.map_bind, Function.comp_def]

/-- Lines are read the same, whatever values came before. -/
theorem foldlM_addLine_after (doc : Document) (r : Reading) (ls : List Line) :
    ls.foldlM addLine (r.after doc) = (ls.foldlM addLine r).map (Reading.after doc) := by
  induction ls generalizing r with
  | nil => rfl
  | cons l ls ih =>
    rw [List.foldlM_cons, List.foldlM_cons, addLine_after]
    cases addLine r l with
    | none => rfl
    | some r' => exact ih r'

theorem foldlM_addLine_append {r r' : Reading} {ls : List Line} (h : ls.foldlM addLine r = some r') (ls' : List Line) :
    (ls ++ ls').foldlM addLine r = ls'.foldlM addLine r' := by
  rw [List.foldlM_append, h]
  rfl

/-! ### Looking values up -/

theorem Document.get_append {doc doc' : Document} {path : Path} (h : ∀ e ∈ doc, e.1 ≠ path) :
    Document.get (doc ++ doc') path = Document.get doc' path := by
  have hnone : doc.find? (fun e => decide (e.1 = path)) = none :=
    List.find?_eq_none.mpr fun e he => by simpa using h e he
  rw [Document.get, List.find?_append, hnone, Option.none_or, Document.get]

theorem Document.get_append_congr {doc' doc'' : Document} {path : Path} (doc : Document)
    (h : Document.get doc' path = Document.get doc'' path) :
    Document.get (doc ++ doc') path = Document.get (doc ++ doc'') path := by
  rw [Document.get, Document.get] at h ⊢
  rw [List.find?_append, List.find?_append]
  cases doc.find? fun e => decide (e.1 = path) with
  | none => exact h
  | some e => rfl

/-! ### Lines that are put together -/

theorem notMem_line {n : ℕ} {rest : Str} (h : 10 ∉ rest) : 10 ∉ List.replicate n 32 ++ rest := by
  rw [List.mem_append, not_or]
  exact ⟨fun hmem => absurd (List.mem_replicate.mp hmem).2 (by decide), h⟩

theorem notMem_entry (hkey : IsKey key) (h : 10 ∉ s) : 10 ∉ entry key s := by
  rw [entry, List.mem_append, List.mem_cons, List.mem_cons, not_or, not_or, not_or]
  exact ⟨fun hmem => absurd (hkey.2 10 hmem) (by decide), by decide, by decide, h⟩

theorem notMem_quoted {v : Str} (h : Plain v) : 10 ∉ quoted v := by
  rw [quoted, List.mem_cons, List.mem_append, List.mem_singleton, not_or, not_or]
  exact ⟨by decide, fun hmem => absurd (h 10 hmem) (by decide), by decide⟩

theorem notMem_decimal (n : ℤ) : 10 ∉ decimal n := by
  intro hmem
  rcases mem_decimal hmem with h | h
  · cases h
  · exact absurd h.1 (by decide)

/-- The lines are read as these lines with keys. -/
def Spells (ls : List Str) (ps : List Line) : Prop :=
  (∀ l ∈ ls, 10 ∉ l) ∧ ∀ r, ls.foldlM readStep r = ps.foldlM addLine r

namespace Spells

variable {ls ls' : List Str} {ps ps' : List Line} {l : Str}

theorem nil : Spells [] [] := ⟨List.forall_mem_nil _, fun _ => rfl⟩

theorem append (h : Spells ls ps) (h' : Spells ls' ps') : Spells (ls ++ ls') (ps ++ ps') := by
  refine ⟨List.forall_mem_append.mpr ⟨h.1, h'.1⟩, fun r => ?_⟩
  rw [List.foldlM_append, List.foldlM_append, h.2]
  exact congrArg _ (funext h'.2)

theorem cons {p : Line} (hline : 10 ∉ l) (hread : readLine l = some (some p)) (h : Spells ls ps) :
    Spells (l :: ls) (p :: ps) := by
  refine ⟨List.forall_mem_cons.mpr ⟨hline, h.1⟩, fun r => ?_⟩
  rw [List.foldlM_cons, List.foldlM_cons, readStep, hread]
  exact congrArg _ (funext h.2)

/-- A line without a key. -/
theorem skip (hline : 10 ∉ l) (hread : readLine l = some none) (h : Spells ls ps) : Spells (l :: ls) ps := by
  refine ⟨List.forall_mem_cons.mpr ⟨hline, h.1⟩, fun r => ?_⟩
  rw [List.foldlM_cons, readStep, hread]
  exact h.2 r

theorem flatMap {α : Type*} {xs : List α} {f : α → List Str} {g : α → List Line} (h : ∀ x ∈ xs, Spells (f x) (g x)) :
    Spells (xs.flatMap f) (xs.flatMap g) := by
  induction xs with
  | nil => exact nil
  | cons x xs ih =>
    rw [List.flatMap_cons, List.flatMap_cons]
    exact (h x List.mem_cons_self).append (ih fun y hy => h y (List.mem_cons_of_mem _ hy))

/-- Lines that are fixed. -/
theorem fixed (h : ∀ l ∈ ls, 10 ∉ l ∧ (readLine l).isSome = true)
    (hps : ls.filterMap (fun l => (readLine l).join) = ps) : Spells ls ps := by
  subst hps
  induction ls with
  | nil => exact nil
  | cons l ls ih =>
    rw [List.forall_mem_cons] at h
    obtain ⟨⟨hline, hsome⟩, h⟩ := h
    obtain ⟨o, ho⟩ := Option.isSome_iff_exists.mp hsome
    rw [List.filterMap_cons, ho]
    cases o with
    | none => exact (ih h).skip hline ho
    | some p => exact (ih h).cons hline ho

/-- A key with text between quotation marks. -/
theorem string {v : Str} (n : ℕ) (key : Str) (hkey : IsKey key) (hv : Plain v) :
    Spells [List.replicate n 32 ++ entry key (quoted v)] [⟨n, false, key, some (.string v)⟩] :=
  nil.cons (notMem_line (notMem_entry hkey (notMem_quoted hv))) (readLine_entry n hkey (readValue_quoted hv))

/-- A key with a number. -/
theorem int (n : ℕ) (key : Str) (hkey : IsKey key) (m : ℤ) :
    Spells [List.replicate n 32 ++ entry key (decimal m)] [⟨n, false, key, some (.int m)⟩] :=
  nil.cons (notMem_line (notMem_entry hkey (notMem_decimal m))) (readLine_entry n hkey (readValue_decimal m))

/-- The first key of an item, with text between quotation marks. -/
theorem item {v : Str} (n : ℕ) (key : Str) (hkey : IsKey key) (hv : Plain v) :
    Spells [List.replicate n 32 ++ 45 :: 32 :: entry key (quoted v)] [⟨n, true, key, some (.string v)⟩] := by
  have hentry : 10 ∉ 45 :: 32 :: entry key (quoted v) := by
    rw [List.mem_cons, List.mem_cons, not_or, not_or]
    exact ⟨by decide, by decide, notMem_entry hkey (notMem_quoted hv)⟩
  exact nil.cons (notMem_line hentry) (readLine_item n hkey (readValue_quoted hv))

/-- **Reading a text from its lines.** -/
theorem read_eq {doc : Document} {blocks : List Block} (h : Spells ls ps)
    (hadd : ps.foldlM addLine start = some ⟨doc, blocks, none⟩) : read (unlines ls) = some doc := by
  have hjoin : unlines ls = join [10] (ls ++ [[]]) := by
    clear h
    induction ls with
    | nil => rfl
    | cons l ls ih =>
      have hcons : join [10] (l :: (ls ++ [[]])) = l ++ [10] ++ join [10] (ls ++ [[]]) := by
        cases ls <;> rfl
      rw [List.cons_append, hcons, ← ih]
      rfl
  have hsplit : (unlines ls).splitOn 10 = ls ++ [[]] := by
    rw [hjoin, splitOn_join (by simp)]
    exact List.forall_mem_append.mpr ⟨h.1, List.forall_mem_singleton.mpr List.not_mem_nil⟩
  rw [read, hsplit, List.foldlM_append, h.2, hadd]
  rfl

end Spells

end Hawal.Lib.Yaml
