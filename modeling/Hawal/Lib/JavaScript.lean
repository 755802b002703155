import Hawal.Lib.Words

/-!
# Numbers in JavaScript

`parseInt` without a radix, and how a number is printed. A number is a double: an integer of up to 53
bits is printed as itself, and what is printed beyond that is left to the engine (`Engine`), which is
only held to what the language says of it.
-/

namespace Hawal.Lib.JavaScript

open Hawal.Lib.Python

/-! ### `parseInt` -/

/-- The white space that `parseInt` skips. -/
def isWhiteSpace (c : ℕ) : Bool :=
  (9 ≤ c && c ≤ 13) || c == 32 || c == 0xA0 || c == 0xFEFF || c == 0x1680 || (0x2000 ≤ c && c ≤ 0x200A) ||
    c == 0x2028 || c == 0x2029 || c == 0x202F || c == 0x205F || c == 0x3000

/-- A digit of ASCII. -/
def isDecimalDigit (c : ℕ) : Bool := 48 ≤ c && c ≤ 57

/-- The value of a digit of base sixteen. -/
def hexValue (c : ℕ) : Option ℕ :=
  if 48 ≤ c ∧ c ≤ 57 then some (c - 48)
  else if 97 ≤ c ∧ c ≤ 102 then some (c - 87)
  else if 65 ≤ c ∧ c ≤ 70 then some (c - 55)
  else none

/-- The digits of base sixteen at the front, after `acc`; `none` for no digit at all. -/
def parseHex : Option ℕ → Str → Option ℕ
  | acc, [] => acc
  | acc, c :: s =>
    match hexValue c with
    | none => acc
    | some v => parseHex (some (acc.getD 0 * 16 + v)) s

/-- The digits of base ten at the front; `none` when there is none. -/
def parseDecimal (s : Str) : Option ℕ :=
  let digits := s.takeWhile isDecimalDigit
  if digits = [] then none else some (spelled digits)

/-- A number without a sign. -/
def parseMagnitude : Str → Option ℕ
  | 48 :: 120 :: s => parseHex none s
  | 48 :: 88 :: s => parseHex none s
  | s => parseDecimal s

/-- `parseInt(s)`, before it is rounded; `none` for `NaN`. -/
def parseInt (s : Str) : Option ℤ :=
  match s.dropWhile isWhiteSpace with
  | 45 :: s => (parseMagnitude s).map fun n : ℕ => -(n : ℤ)
  | 43 :: s => (parseMagnitude s).map fun n : ℕ => (n : ℤ)
  | s => (parseMagnitude s).map fun n : ℕ => (n : ℤ)

example : parseInt (str " 443 ms") = some 443 ∧ parseInt (str "0x1bb") = some 443 ∧ parseInt (str "ms") = none := by
  decide +kernel

theorem parseMagnitude_natDigits (n : ℕ) : parseMagnitude (natDigits n) = some n := by
  have hdigits : ∀ c ∈ natDigits n, IsDigit c := fun _ => isDigit_of_mem_natDigits
  have hnot : ∀ c s, natDigits n = 48 :: c :: s → c ≠ 120 ∧ c ≠ 88 := by
    intro c s h
    have hc : IsDigit c := hdigits c (h ▸ List.mem_cons_of_mem _ List.mem_cons_self)
    have := hc.2
    exact ⟨by omega, by omega⟩
  have htake : (natDigits n).takeWhile isDecimalDigit = natDigits n := by
    refine List.takeWhile_eq_self_iff.mpr fun c hc => ?_
    have hc := hdigits c hc
    rw [isDecimalDigit, Bool.and_eq_true]
    exact ⟨decide_eq_true hc.1, decide_eq_true hc.2⟩
  unfold parseMagnitude
  split
  · rename_i h
    exact absurd rfl (hnot _ _ h).1
  · rename_i h
    exact absurd rfl (hnot _ _ h).2
  · rw [parseDecimal, htake, if_neg (natDigits_ne_nil n), spelled_natDigits]

/-- A number that is written in decimal is read. -/
theorem parseInt_decimal (n : ℤ) : parseInt (decimal n) = some n := by
  cases n with
  | ofNat n =>
    have hskip : (natDigits n).dropWhile isWhiteSpace = natDigits n := by
      cases h : natDigits n with
      | nil => rfl
      | cons c s =>
        have hc : IsDigit c := isDigit_of_mem_natDigits (h ▸ List.mem_cons_self)
        refine List.dropWhile_cons_of_neg ?_
        have hall : ∀ d < 10, isWhiteSpace (48 + d) = false := by decide
        have hspace := hall (c - 48) (by have := hc.2; omega)
        rw [Nat.add_sub_cancel' hc.1] at hspace
        rw [hspace]
        exact Bool.false_ne_true
    show parseInt (natDigits n) = _
    unfold parseInt
    rw [hskip]
    split
    · rename_i h
      have hc : IsDigit 45 := isDigit_of_mem_natDigits (h ▸ List.mem_cons_self)
      exact absurd hc.1 (by decide)
    · rename_i h
      have hc : IsDigit 43 := isDigit_of_mem_natDigits (h ▸ List.mem_cons_self)
      exact absurd hc.1 (by decide)
    · rw [parseMagnitude_natDigits]
      rfl
  | negSucc n =>
    have hskip : (decimal (.negSucc n)).dropWhile isWhiteSpace = 45 :: natDigits (n + 1) := rfl
    unfold parseInt
    rw [hskip]
    show (parseMagnitude (natDigits (n + 1))).map _ = _
    rw [parseMagnitude_natDigits]
    rfl

/-! ### Printing -/

/-- How an engine prints the number that is nearest to an integer. -/
structure Engine where
  /-- As an integer, which is the one here; `none` for an exponent or an infinity. -/
  plain : ℤ → Option ℤ
  /-- What is printed in the other case. -/
  far : ℤ → Str
  /-- Integers of up to 53 bits are numbers. -/
  safe : ∀ n : ℤ, n.natAbs ≤ 2 ^ 53 → plain n = some n
  /-- What is printed denotes the same number. -/
  again : ∀ n m : ℤ, plain n = some m → plain m = some m
  /-- Numbers below `10 ^ 21` are printed without an exponent. -/
  near : ∀ n : ℤ, n.natAbs < 10 ^ 20 → (plain n).isSome = true
  /-- An exponent comes after one digit and a point, and an infinity has no digit. -/
  far_form : ∀ n : ℤ, plain n = none → '='.toNat ∉ far n ∧ ∀ m ∈ parseInt (far n), m.natAbs < 10

namespace Engine

variable (e : Engine)

/-- `String(n)` of the number next to `n`. -/
def print (n : ℤ) : Str :=
  match e.plain n with
  | some m => decimal m
  | none => e.far n

/-- The number is printed as the integer that it was read from. -/
def Prints (n : ℤ) : Prop := e.plain n = some n

/-- An engine that does not round; for integers of up to 53 bits they are all like this. -/
def unrounded : Engine where
  plain := some
  far := fun _ => []
  safe := fun _ _ => rfl
  again := fun _ _ _ => rfl
  near := fun _ _ => rfl
  far_form := fun _ h => nomatch h

theorem print_of_prints {e : Engine} {n : ℤ} (h : e.Prints n) : e.print n = decimal n := by
  rw [print, show e.plain n = some n from h]

/-- Text that is printed again when it is read is that of an integer. -/
theorem eq_decimal_of_print {e : Engine} {s : Str} {n : ℤ} (hread : parseInt s = some n) (hprint : e.print n = s) :
    s = decimal n ∧ e.Prints n := by
  unfold print at hprint
  cases hplain : e.plain n with
  | some m =>
    rw [hplain] at hprint
    subst hprint
    rw [parseInt_decimal, Option.some.injEq] at hread
    subst hread
    exact ⟨rfl, hplain⟩
  | none =>
    rw [hplain] at hprint
    subst hprint
    have hsmall : n.natAbs < 10 := (e.far_form n hplain).2 n hread
    have hsome := e.near n (Nat.lt_trans hsmall (by decide))
    rw [hplain] at hsome
    cases hsome

end Engine

end Hawal.Lib.JavaScript
