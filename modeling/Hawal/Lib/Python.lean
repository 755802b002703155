import Mathlib.Data.List.DropRight
import Mathlib.Data.Int.Notation

/-!
# Strings as Python has them

A string is a list of code points. Lone surrogates are among them (a JSON escape can
make one), but UTF-8 has no bytes for those: `Text` is a string without them, which is what a
file, a socket or a text column of SQLite can hold. The methods are those of `str` that are
needed to read numbers, rules and addresses out of strings, and to print them again.
-/

namespace Hawal.Lib.Python

/-- A string: its code points. -/
abbrev Str := List ℕ

instance instLawfulBEqStr : LawfulBEq Str := inferInstance

/-- The string of a literal. -/
def str (s : String) : Str := s.toList.map Char.toNat

theorem str_inj {s t : String} : str s = str t ↔ s = t := by
  constructor
  · intro h
    have hchars : s.toList = t.toList := List.map_injective_iff.mpr (fun _ _ hab => Char.toNat_inj.mp hab) h
    exact String.toList_inj.mp hchars
  · exact fun h => h ▸ rfl

/-- UTF-8 has bytes for the string. -/
def Encodable (s : Str) : Prop := ∀ c ∈ s, ¬ (0xD800 ≤ c ∧ c < 0xE000)

instance (s : Str) : Decidable (Encodable s) :=
  inferInstanceAs (Decidable (∀ c ∈ s, ¬ (0xD800 ≤ c ∧ c < 0xE000)))

/-- A string that UTF-8 has bytes for. -/
abbrev Text := {s : Str // Encodable s}

theorem encodable_str (s : String) : Encodable (str s) := by
  intro c hc
  obtain ⟨ch, -, rfl⟩ := List.mem_map.mp hc
  rintro ⟨hlo, hhi⟩
  rcases ch.valid with h | ⟨h, -⟩
  · exact absurd (Nat.lt_of_lt_of_le h hlo) (Nat.lt_irrefl _)
  · exact absurd (Nat.lt_of_lt_of_le hhi h) (Nat.lt_irrefl _)

/-- The text of a literal. -/
def text (s : String) : Text := ⟨str s, encodable_str s⟩

theorem Encodable.append {s t : Str} (hs : Encodable s) (ht : Encodable t) : Encodable (s ++ t) := by
  intro c hc
  rcases List.mem_append.mp hc with hc | hc
  · exact hs c hc
  · exact ht c hc

/-! ### White space and parts -/

/-- `str.isspace` of one code point. -/
def isSpace (c : ℕ) : Bool :=
  (9 ≤ c && c ≤ 13) || (28 ≤ c && c ≤ 32) || c == 0x85 || c == 0xA0 || c == 0x1680 ||
    (0x2000 ≤ c && c ≤ 0x200A) || c == 0x2028 || c == 0x2029 || c == 0x202F || c == 0x205F || c == 0x3000

/-- The white space of ASCII, as C has it. -/
def isAsciiSpace (c : ℕ) : Bool := (9 ≤ c && c ≤ 13) || c == 32

/-- `s` without the code points at its ends that `p` holds of. -/
def stripBy (p : ℕ → Bool) (s : Str) : Str := (s.dropWhile p).rdropWhile p

/-- `s.strip()`. -/
def strip (s : Str) : Str := stripBy isSpace s

/-- `s.split(c)[0]`: the part before the first `c`. -/
def before (c : ℕ) (s : Str) : Str := s.takeWhile fun x => decide (x ≠ c)

/-- `s.split(c, 1)[1]`: the part after the first `c`, when there is one. -/
def after (c : ℕ) (s : Str) : Option Str :=
  match s.dropWhile fun x => decide (x ≠ c) with
  | [] => none
  | _ :: rest => some rest

theorem suffix_of_after {c : ℕ} {s t : Str} (h : after c s = some t) : t <:+ s := by
  unfold after at h
  cases hdrop : s.dropWhile fun x => decide (x ≠ c) with
  | nil =>
    rw [hdrop] at h
    cases h
  | cons d rest =>
    rw [hdrop, Option.some.injEq] at h
    have hsuffix : d :: rest <:+ s := hdrop ▸ List.dropWhile_suffix _
    exact h ▸ (List.suffix_cons d rest).trans hsuffix

/-- `s.split(c)[-1]`: the part after the last `c`. -/
def afterLast (c : ℕ) (s : Str) : Str := s.rtakeWhile fun x => decide (x ≠ c)

theorem afterLast_append_cons {c : ℕ} {s t : Str} (h : c ∉ t) : afterLast c (s ++ c :: t) = t := by
  have hrev : (s ++ c :: t).reverse = t.reverse ++ c :: s.reverse := by simp
  rw [afterLast, List.rtakeWhile, hrev, List.takeWhile_append_of_pos, List.takeWhile_cons_of_neg]
  · rw [List.append_nil, List.reverse_reverse]
  · simp
  · intro x hx
    refine decide_eq_true fun hxc => h ?_
    exact hxc ▸ List.mem_reverse.mp hx

/-- `old` replaced by `new`, after `skip` code points of an occurrence. -/
def replaceFrom (old new : Str) : ℕ → Str → Str
  | _, [] => []
  | skip + 1, _ :: rest => replaceFrom old new skip rest
  | 0, c :: rest =>
    if old.isPrefixOf (c :: rest) then new ++ replaceFrom old new (old.length - 1) rest
    else c :: replaceFrom old new 0 rest

/-- `s.replace(old, new)`, of an `old` that is not empty. -/
def replace (old new s : Str) : Str := replaceFrom old new 0 s

example : replace (str "ab") (str "x") (str "aabab") = str "axx" := by decide

/-- `sep.join(parts)`. -/
def join (sep : Str) : List Str → Str
  | [] => []
  | [p] => p
  | p :: ps => p ++ sep ++ join sep ps

/-- Lines, each with its end. -/
def unlines (ls : List Str) : Str := ls.flatMap fun l => l ++ str "\n"

theorem unlines_append (ls ms : List Str) : unlines (ls ++ ms) = unlines ls ++ unlines ms :=
  List.flatMap_append

/-! ### Numbers -/

/-- The digits of `n` in base ten. -/
def natDigits (n : ℕ) : Str := (Nat.toDigits 10 n).map Char.toNat

/-- `str(n)` of an integer. -/
def decimal : ℤ → Str
  | .ofNat n => natDigits n
  | .negSucc n => str "-" ++ natDigits (n + 1)

/-- `t` hexadecimal digits of `n`, the last ones. -/
def hexDigits : ℕ → ℕ → Str
  | 0, _ => []
  | t + 1, n => hexDigits t (n / 16) ++ [(Nat.digitChar (n % 16)).toNat]

theorem natDigits_encodable (n : ℕ) : Encodable (natDigits n) := by
  have h := encodable_str (String.ofList (Nat.toDigits 10 n))
  rwa [str, String.toList_ofList] at h

theorem decimal_encodable : ∀ n : ℤ, Encodable (decimal n)
  | .ofNat n => natDigits_encodable n
  | .negSucc n => (encodable_str "-").append (natDigits_encodable (n + 1))

theorem hexDigits_encodable (t n : ℕ) : Encodable (hexDigits t n) := by
  induction t generalizing n with
  | zero => intro c hc; cases hc
  | succ t ih =>
    refine (ih _).append ?_
    have h := encodable_str (String.ofList [Nat.digitChar (n % 16)])
    rwa [str, String.toList_ofList] at h

/-- A digit of ASCII. -/
def IsDigit (c : ℕ) : Prop := 48 ≤ c ∧ c ≤ 57

theorem isDigit_of_mem_natDigits {n c : ℕ} (h : c ∈ natDigits n) : IsDigit c := by
  obtain ⟨ch, hch, rfl⟩ := List.mem_map.mp h
  have hd : ch.isDigit = true := Nat.isDigit_of_mem_toDigits (by decide) (by decide) hch
  exact Char.isDigit_iff_toNat.mp hd

theorem natDigits_inj {m n : ℕ} : natDigits m = natDigits n ↔ m = n := by
  constructor
  · intro h
    have hchars : Nat.toDigits 10 m = Nat.toDigits 10 n :=
      List.map_injective_iff.mpr (fun a b hab => Char.toNat_inj.mp hab) h
    rw [← Nat.ofDigitChars_ten_toDigits (n := m), hchars, Nat.ofDigitChars_ten_toDigits]
  · exact fun h => h ▸ rfl

/-- What a number is printed with: digits and the sign. -/
theorem mem_decimal {n : ℤ} {c : ℕ} (h : c ∈ decimal n) : c = 45 ∨ IsDigit c := by
  cases n with
  | ofNat n => exact .inr (isDigit_of_mem_natDigits h)
  | negSucc n =>
    rcases List.mem_append.mp h with h | h
    · exact .inl (List.mem_singleton.mp h)
    · exact .inr (isDigit_of_mem_natDigits h)

/-- The sign is not a digit. -/
theorem natDigits_ne_neg (m n : ℕ) : natDigits m ≠ str "-" ++ natDigits n := by
  intro h
  have hmem : 45 ∈ natDigits m := by
    rw [h]
    exact List.mem_append_left _ (List.mem_singleton.mpr rfl)
  exact absurd (isDigit_of_mem_natDigits hmem).1 (by decide)

/-- Numbers are told apart by how they are printed. -/
theorem decimal_inj {m n : ℤ} : decimal m = decimal n ↔ m = n := by
  constructor
  · intro h
    cases m with
    | ofNat m =>
      cases n with
      | ofNat n => rw [natDigits_inj.mp h]
      | negSucc n => exact absurd h (natDigits_ne_neg m (n + 1))
    | negSucc m =>
      cases n with
      | ofNat n => exact absurd h.symm (natDigits_ne_neg n (m + 1))
      | negSucc n =>
        have hdigits : m + 1 = n + 1 := natDigits_inj.mp (List.append_cancel_left h)
        rw [Nat.succ.inj hdigits]
  · exact fun h => h ▸ rfl

/-- The code points for zero in the scripts that have decimal digits; the other nine follow each. -/
def digitZeros : List ℕ :=
  [0x30, 0x660, 0x6F0, 0x7C0, 0x966, 0x9E6, 0xA66, 0xAE6, 0xB66, 0xBE6, 0xC66, 0xCE6, 0xD66, 0xDE6,
    0xE50, 0xED0, 0xF20, 0x1040, 0x1090, 0x17E0, 0x1810, 0x1946, 0x19D0, 0x1A80, 0x1A90, 0x1B50,
    0x1BB0, 0x1C40, 0x1C50, 0xA620, 0xA8D0, 0xA900, 0xA9D0, 0xA9F0, 0xAA50, 0xABF0, 0xFF10, 0x104A0,
    0x10D30, 0x11066, 0x110F0, 0x11136, 0x111D0, 0x112F0, 0x11450, 0x114D0, 0x11650, 0x116C0,
    0x11730, 0x118E0, 0x11950, 0x11C50, 0x11D50, 0x11DA0, 0x16A60, 0x16AC0, 0x16B50, 0x1D7CE,
    0x1D7D8, 0x1D7E2, 0x1D7EC, 0x1D7F6, 0x1E140, 0x1E2F0, 0x1E950, 0x1FBF0]

/-- The value of a decimal digit. -/
def digitValue (c : ℕ) : Option ℕ := (digitZeros.find? fun z => z ≤ c && c < z + 10).map fun z => c - z

/-- The number that digits spell after those of `acc`. One underscore may stand between two
digits; `afterDigit` says whether a digit was just read. -/
def parseDigits : Bool → ℕ → Str → Option ℕ
  | afterDigit, acc, [] => if afterDigit then some acc else none
  | afterDigit, acc, c :: rest =>
    if c = 0x5F then if afterDigit then parseDigits false acc rest else none
    else (digitValue c).bind fun v => parseDigits true (acc * 10 + v) rest

/-- How many digits `int` takes. -/
def maxStrDigits : ℕ := 4300

/-- `int(s)` of a string; `none` when it raises. -/
def parseInt (s : Str) : Option ℤ :=
  let t := stripBy (if s.all fun c => decide (c < 128) then isAsciiSpace else isSpace) s
  if maxStrDigits < (t.filter fun c => (digitValue c).isSome).length then none
  else
    match t with
    | 0x2D :: r => (parseDigits false 0 r).map fun n => -(n : ℤ)
    | 0x2B :: r => (parseDigits false 0 r).map fun n => (n : ℤ)
    | r => (parseDigits false 0 r).map fun n => (n : ℤ)

example : parseInt (str " 8_443\n") = some 8443 := by decide

/-! ### Case and percent encoding -/

/-- `c.lower()` of one code point, as far as comparing with words in ASCII can tell: besides the
capitals of ASCII only the Kelvin sign has a letter of ASCII as its lower case. -/
def lowerChar (c : ℕ) : ℕ := if 65 ≤ c ∧ c ≤ 90 then c + 32 else if c = 0x212A then 107 else c

/-- `s.lower()`, to be compared with words in ASCII. -/
def lower (s : Str) : Str := s.map lowerChar

/-- The bytes of a code point in UTF-8. -/
def utf8 (c : ℕ) : List ℕ :=
  if c < 0x80 then [c]
  else if c < 0x800 then [0xC0 + c / 64, 0x80 + c % 64]
  else if c < 0x10000 then [0xE0 + c / 4096, 0x80 + c / 64 % 64, 0x80 + c % 64]
  else [0xF0 + c / 262144, 0x80 + c / 4096 % 64, 0x80 + c / 64 % 64, 0x80 + c % 64]

/-- The bytes that percent encoding leaves alone: letters, digits, and `_.-~`. -/
def isUnreserved (b : ℕ) : Bool :=
  (48 ≤ b && b ≤ 57) || (65 ≤ b && b ≤ 90) || (97 ≤ b && b ≤ 122) || b == 0x5F || b == 0x2E ||
    b == 0x2D || b == 0x7E

/-- A digit of base sixteen, as percent encoding writes it. -/
def upperHexDigit (n : ℕ) : ℕ := if n < 10 then 48 + n else 55 + n

/-- `quote(s, safe="")`. -/
def quote (t : Text) : Str :=
  (t.val.flatMap utf8).flatMap fun b =>
    if isUnreserved b then [b] else [0x25, upperHexDigit (b / 16), upperHexDigit (b % 16)]

end Hawal.Lib.Python
