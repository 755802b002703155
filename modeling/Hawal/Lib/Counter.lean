import Mathlib.Data.Int.Notation
import Mathlib.Algebra.Order.Group.Int

/-!
# Counters that restart

A counter only grows, but may start again from zero between two readings; a smaller reading than
the one before shows that it has. `grown` is what was counted between two readings, as far as they
tell, and `total` what was counted over a history of readings. A reader that keeps the last reading
and takes the difference, or nothing when it is negative, sees `advance`.
-/

namespace Hawal.Lib

/-- What was counted between two readings. -/
def grown (old new : ℤ) : ℤ := if old ≤ new then new - old else new

/-- The difference of two readings, or nothing. -/
def advance (old new : ℤ) : ℤ := max 0 (new - old)

/-- What was counted over a history of readings, the newest first. -/
def total : List ℤ → ℤ
  | new :: old :: rest => grown old new + total (old :: rest)
  | _ => 0

/-- A further reading counts from the last one. -/
theorem total_cons {l : List ℤ} {old : ℤ} (h : l.head? = some old) (new : ℤ) :
    total (new :: l) = grown old new + total l := by
  cases l with
  | nil => cases h
  | cons n rest =>
    cases h
    rfl

/-- The part of what was counted that is passed on, when the difference is passed on or lost. -/
def passed (sent : Bool) (old new : ℤ) : ℤ := if sent then advance old new else 0

/-- No more is passed on than was counted. -/
theorem passed_le_grown (sent : Bool) {old new : ℤ} (h : 0 ≤ new) : passed sent old new ≤ grown old new := by
  unfold passed advance grown
  split <;> split <;> omega

/-- All is passed on unless the counter has restarted and counted since, or has grown and the
difference is lost. -/
theorem passed_eq_grown_iff {sent : Bool} {old new : ℤ} :
    passed sent old new = grown old new ↔ (new < old → new = 0) ∧ (old < new → sent = true) := by
  unfold passed advance grown
  cases sent with
  | true =>
    simp only [if_true, implies_true, and_true]
    split <;> omega
  | false =>
    simp only [Bool.false_eq_true, if_false, imp_false]
    split <;> omega

end Hawal.Lib
