import Hawal.Lib.Run
import Mathlib.Data.Finset.Card

/-!
# Counting along a run

`countAlong` is how many steps of a run are of a kind. What a step keeps of a state and a number,
when it adds one to the number if it is of the kind, holds of the last state and the count
(`exec_count`). Of an unbounded family of parties of which finitely many are in some condition,
`Exactly.update` gives the change in their number when one party moves.
-/

namespace Hawal.Lib

universe u v w

variable {σ : Type u} {α : Type v} {step : σ → α → Option σ} {P : σ → α → Bool}

/-- How many steps of a run are of a kind. -/
def countAlong (step : σ → α → Option σ) (P : σ → α → Bool) : σ → List α → ℕ
  | _, [] => 0
  | s, a :: as =>
    (P s a).toNat + match step s a with
      | some t => countAlong step P t as
      | none => 0

theorem countAlong_cons {s t : σ} {a : α} (h : step s a = some t) (as : List α) :
    countAlong step P s (a :: as) = (P s a).toNat + countAlong step P t as := by
  simp only [countAlong, h]

/-- **Counting rule**: what holds of a state and a number, and is kept by every step. -/
theorem exec_count {I : ℕ → σ → Prop}
    (hI : ∀ n s a s', I n s → step s a = some s' → I (n + (P s a).toNat) s') :
    ∀ {as : List α} {s s' : σ} {n : ℕ}, I n s → exec step s as = some s' → I (n + countAlong step P s as) s' := by
  intro as
  induction as with
  | nil =>
    intro s s' n hs h
    rw [exec_nil, Option.some.injEq] at h
    exact h ▸ hs
  | cons a as ih =>
    intro s s' n hs h
    obtain ⟨t, ha, ht⟩ := exec_cons_eq_some.mp h
    rw [countAlong_cons ha, ← Nat.add_assoc]
    exact ih (hI n s a t hs ha) ht

/-! ### Parties in some condition -/

variable {ι : Type w} [DecidableEq ι] {M : Finset ι} {p p' : ι → Bool}

/-- The members of `M` are the parties in the condition. -/
def Exactly (M : Finset ι) (p : ι → Bool) : Prop := ∀ i, i ∈ M ↔ p i = true

omit [DecidableEq ι] in
/-- Nobody is. -/
theorem Exactly.empty (h : ∀ i, p i = false) : Exactly ∅ p := by
  intro i
  simp [h i]

/-- When the party `i` moves, only it counts. -/
theorem Exactly.update (h : Exactly M p) {i : ι} (hothers : ∀ j, j ≠ i → p' j = p j) :
    ∃ M', Exactly M' p' ∧ M'.card + (p i).toNat = M.card + (p' i).toNat := by
  cases hnew : p' i with
  | true =>
    refine ⟨insert i M, fun j => ?_, ?_⟩
    · by_cases hj : j = i
      · simp [hj, hnew]
      · rw [Finset.mem_insert, or_iff_right hj, h j, hothers j hj]
    · cases hold : p i with
      | true =>
        have hmem : i ∈ M := (h i).mpr hold
        rw [Finset.insert_eq_of_mem hmem]
      | false =>
        have hmem : i ∉ M := fun hmem => by simp [(h i).mp hmem] at hold
        rw [Finset.card_insert_of_notMem hmem]
        rfl
  | false =>
    refine ⟨M.erase i, fun j => ?_, ?_⟩
    · by_cases hj : j = i
      · simp [hj, hnew]
      · rw [Finset.mem_erase, and_iff_right hj, h j, hothers j hj]
    · cases hold : p i with
      | true =>
        have hmem : i ∈ M := (h i).mpr hold
        exact Finset.card_erase_add_one hmem
      | false =>
        have hmem : i ∉ M := fun hmem => by simp [(h i).mp hmem] at hold
        rw [Finset.erase_eq_of_notMem hmem]

end Hawal.Lib
