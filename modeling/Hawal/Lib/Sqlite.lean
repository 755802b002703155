import Hawal.Lib.Json
import Mathlib.Algebra.Group.Nat.Defs
import Mathlib.Algebra.Group.Int.Defs

/-!
# Values on their way into SQLite

A parameter of a statement is bound before the statement runs: a list, a dict, an integer of more
than 64 bits or a string that UTF-8 cannot encode is refused there. A column with text affinity
keeps numbers as their text. Sums of integers that leave 64 bits are computed as floats.
-/

namespace Hawal.Lib.Python

/-- Integers that SQLite has as integers. -/
def Fits64 (n : ℤ) : Prop := -2 ^ 63 ≤ n ∧ n < 2 ^ 63

instance (n : ℤ) : Decidable (Fits64 n) := inferInstanceAs (Decidable (_ ∧ _))

namespace Json

/-- Bind the value to a parameter and store it in a text column: `none` when the binding raises,
`some none` for NULL. -/
def bindText : Json → Option (Option Text)
  | null => some none
  | bool b => some (some (text (if b then "1" else "0")))
  | int n => if Fits64 n then some (some ⟨decimal n, decimal_encodable n⟩) else none
  | float x => some x.column
  | str s => if h : Encodable s then some (some ⟨s, h⟩) else none
  | list _ => none
  | dict _ => none

/-- The same for a text column that is `NOT NULL`. -/
def bindTextNotNull (v : Json) : Option Text := v.bindText.join

end Json

/-- The magnitude of the double next to `n`, of two that are as near the one with an even
significand. -/
def roundDouble (n : ℕ) : ℕ :=
  if n < 2 ^ 53 then n
  else
    let ulp := 2 ^ (n.log2 - 52)
    let q := n / ulp
    let r := n % ulp
    (if 2 * r < ulp ∨ 2 * r = ulp ∧ q % 2 = 0 then q else q + 1) * ulp

/-- The double next to `n`. -/
def toDouble : ℤ → ℤ
  | .ofNat n => roundDouble n
  | .negSucc n => -(roundDouble (n + 1) : ℤ)

/-- What a column with integer affinity holds: an integer or, once a sum has left 64 bits, a float,
which at that size is a whole number too. -/
inductive Numeric
  | integer (n : ℤ)
  | real (x : ℤ)
  deriving DecidableEq

namespace Numeric

/-- The number. -/
def value : Numeric → ℤ
  | integer n => n
  | real x => x

/-- Store a float: the affinity makes it an integer only strictly between the two bounds, so that
`-2 ^ 63` stays a float. -/
def ofDouble (x : ℤ) : Numeric := if -2 ^ 63 < x ∧ x < 2 ^ 63 - 1 then integer x else real x

/-- An integer of 64 bits. -/
def Exact : Numeric → Prop
  | integer n => Fits64 n
  | real _ => False

instance : (a : Numeric) → Decidable a.Exact
  | integer n => inferInstanceAs (Decidable (Fits64 n))
  | real _ => isFalse id

end Numeric

/-- `a + b` for a column value `a` and an integer parameter `b`. -/
def sqlAdd : Numeric → ℤ → Numeric
  | .integer n, b =>
    if Fits64 (n + b) then .integer (n + b) else .ofDouble (toDouble (toDouble n + toDouble b))
  | .real x, b => .ofDouble (toDouble (x + toDouble b))

example : [-2 ^ 63, -1, 1000, 2 ^ 62, 4611686018427386904].foldl sqlAdd (.integer 0) = .integer 24 := by
  decide +kernel

end Hawal.Lib.Python
