import Hawal.Lib.JsonAscii
import Hawal.Lib.Utf8

/-!
# JSON text as bytes

What is sent over a connection is `json.dumps(v).encode("utf-8")`, and what is read is
`json.loads(body.decode("utf-8"))`.

* `ascii_dumpsIn` — the text is in ASCII, so that it has as many bytes as characters.
* `loadsBytes_dumpsIn` — the value comes back from the bytes.
-/

namespace Hawal.Lib.Python

variable {R : FloatReader}

/-- `json.loads(body.decode("utf-8"))`. -/
def loadsBytes (R : FloatReader) (body : List ℕ) : Option Json := (decodeStrict body).bind (loads R)

/-! ### Strings -/

theorem ascii_nil : Ascii [] := List.forall_mem_nil _

theorem ascii_cons {c : ℕ} {s : Str} (hc : c < 128) (hs : Ascii s) : Ascii (c :: s) := List.forall_mem_cons.mpr ⟨hc, hs⟩

theorem ascii_hexDigits (k n : ℕ) : Ascii (hexDigits k n) := by
  have hdigit : ∀ d < 16, (Nat.digitChar d).toNat < 128 := by decide
  induction k generalizing n with
  | zero => exact ascii_nil
  | succ k ih => exact (ih (n / 16)).append (ascii_cons (hdigit _ (by omega)) ascii_nil)

theorem ascii_escape (n : ℕ) : Ascii (str "\\u" ++ hexDigits 4 n) := Ascii.append (by decide) (ascii_hexDigits 4 n)

theorem ascii_escapeChar {c : ℕ} (hc : c < 128) : Ascii (escapeChar c) := by
  unfold escapeChar
  split_ifs
  all_goals first | decide | exact ascii_escape c | exact ascii_cons hc ascii_nil

theorem ascii_asciiChar (c : ℕ) : Ascii (asciiChar c) := by
  unfold asciiChar
  split
  · exact ascii_escapeChar (by omega)
  · intro d hd
    obtain ⟨u, -, hd⟩ := List.mem_flatMap.mp hd
    exact ascii_escape u d hd

theorem ascii_asciiQuoted (s : Str) : Ascii (asciiQuoted s) := by
  refine ascii_cons (by decide) (Ascii.append (fun d hd => ?_) (by decide))
  obtain ⟨c, -, hd⟩ := List.mem_flatMap.mp hd
  exact ascii_asciiChar c d hd

/-! ### Values -/

theorem ascii_white {s : Str} (h : White s) : Ascii s := by
  intro c hc
  rcases h c hc with rfl | rfl <;> decide

theorem ascii_word {w : Str} {v : Json} (h : WordFor R w v) : Ascii w := by
  intro c hc
  have hchar := h.chars c hc
  simp [isWordChar, isDecimal] at hchar
  omega

variable (L : Layout)

mutual

theorem ascii_textIn : ∀ (v : Json) (level : ℕ), Loaded R v → Ascii (v.textIn L level)
  | .null, _, h => ascii_word (wordFor_wordText h rfl)
  | .bool _, _, h => ascii_word (wordFor_wordText h rfl)
  | .int _, _, h => ascii_word (wordFor_wordText h rfl)
  | .float _, _, h => ascii_word (wordFor_wordText h rfl)
  | .str s, _, _ => ascii_asciiQuoted s
  | .list [], _, _ => (show Ascii (str "[]") by decide)
  | .dict [], _, _ => (show Ascii (str "\x7b\x7d") by decide)
  | .list (x :: xs), level, h => by
    have hitems : ∀ y ∈ x :: xs, Loaded R y := by
      cases h with
      | list _ h => exact h
    have hopen : Ascii (91 :: L.gap (level + 1)) := ascii_cons (by decide) (ascii_white (L.white_gap _))
    have hend : Ascii (L.gap level ++ [93]) := (ascii_white (L.white_gap level)).append (by decide)
    rw [Json.textIn, List.append_assoc]
    exact (ascii_itemsIn (x :: xs) (level + 1) hopen hitems).append hend
  | .dict (f :: fs), level, h => by
    have hfields : ∀ g ∈ f :: fs, Loaded R g.2 := by
      cases h with
      | dict _ _ h => exact h
    have hopen : Ascii (123 :: L.gap (level + 1)) := ascii_cons (by decide) (ascii_white (L.white_gap _))
    have hend : Ascii (L.gap level ++ [125]) := (ascii_white (L.white_gap level)).append (by decide)
    rw [Json.textIn, List.append_assoc]
    exact (ascii_fieldsIn (f :: fs) (level + 1) hopen hfields).append hend

theorem ascii_itemsIn : ∀ (xs : List Json) (level : ℕ) {sep : Str}, Ascii sep → (∀ x ∈ xs, Loaded R x) →
    Ascii (itemsIn L level sep xs)
  | [], _, _, _, _ => ascii_nil
  | x :: xs, level, sep, hsep, h => by
    rw [List.forall_mem_cons] at h
    have hcomma : Ascii (44 :: L.afterComma level) := ascii_cons (by decide) (ascii_white (L.white_afterComma _))
    rw [itemsIn]
    exact (hsep.append (ascii_textIn x level h.1)).append (ascii_itemsIn xs level hcomma h.2)

theorem ascii_fieldsIn : ∀ (fs : Fields) (level : ℕ) {sep : Str}, Ascii sep → (∀ f ∈ fs, Loaded R f.2) →
    Ascii (fieldsIn L level sep fs)
  | [], _, _, _, _ => ascii_nil
  | (k, v) :: fs, level, sep, hsep, h => by
    rw [List.forall_mem_cons] at h
    have hcomma : Ascii (44 :: L.afterComma level) := ascii_cons (by decide) (ascii_white (L.white_afterComma _))
    have hcolon : Ascii (58 :: L.afterColon) := ascii_cons (by decide) (ascii_white L.white_afterColon)
    have hkey : Ascii (sep ++ asciiQuoted k) := hsep.append (ascii_asciiQuoted k)
    rw [fieldsIn]
    exact ((hkey.append hcolon).append (ascii_textIn v level h.1)).append (ascii_fieldsIn fs level hcomma h.2)

end

/-- **What `json.dumps` writes is in ASCII.** -/
theorem ascii_dumpsIn {v : Json} (h : Loaded R v) : Ascii (dumpsIn L v) := ascii_textIn L v 0 h

/-- The value comes back from the bytes. -/
theorem loadsBytes_dumpsIn {v : Json} (h : Loaded R v) (hs : AllStrings Sound v) :
    loadsBytes R (dumpsIn L v) = some v := by
  have hascii := ascii_dumpsIn L h
  have hdecoded : decodeStrict (dumpsIn L v) = some (dumpsIn L v) := by
    rw [← hascii.encode]
    conv_rhs => rw [hascii.encode]
    exact decodeStrict_encode hascii.scalar
  rw [loadsBytes, hdecoded, Option.bind_some, loads_dumpsIn L h hs]

end Hawal.Lib.Python
