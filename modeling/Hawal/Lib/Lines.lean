import Hawal.Lib.Python
import Mathlib.Data.List.Infix

/-!
# Lines and occurrences

`splitlines`, which reads back the lines that were written, and where a text without some character
occurs in a text that this character divides.
-/

namespace Hawal.Lib.Python

/-! ### Lines -/

/-- The code points that end a line. -/
def isLineBreak (c : ℕ) : Bool := (10 ≤ c && c ≤ 13) || (28 ≤ c && c ≤ 30) || c == 0x85 || c == 0x2028 || c == 0x2029

/-- The lines, the first of which begins with `line`. -/
def splitlinesFrom : Str → Str → List Str
  | line, [] => if line = [] then [] else [line]
  | line, 13 :: 10 :: rest => line :: splitlinesFrom [] rest
  | line, c :: rest => if isLineBreak c then line :: splitlinesFrom [] rest else splitlinesFrom (line ++ [c]) rest

/-- `s.splitlines()`. -/
def splitlines (s : Str) : List Str := splitlinesFrom [] s

example : splitlines (str "a\r\nb\n\nc") = [str "a", str "b", [], str "c"] := by decide

theorem splitlinesFrom_line (acc : Str) {line : Str} (h : ∀ c ∈ line, isLineBreak c = false) (rest : Str) :
    splitlinesFrom acc (line ++ 10 :: rest) = (acc ++ line) :: splitlinesFrom [] rest := by
  induction line generalizing acc with
  | nil =>
    rw [List.nil_append, List.append_nil, splitlinesFrom, if_pos (by decide)]
    simp
  | cons c line ih =>
    rw [List.forall_mem_cons] at h
    have hstep : splitlinesFrom acc (c :: (line ++ 10 :: rest)) =
        splitlinesFrom (acc ++ [c]) (line ++ 10 :: rest) := by
      rw [splitlinesFrom, if_neg (by rw [h.1]; exact Bool.false_ne_true)]
      -- a carriage return would end the line
      intro rest' hc _
      rw [hc] at h
      exact absurd h.1 (by decide)
    rw [List.cons_append, hstep, ih _ h.2, List.append_assoc]
    rfl

/-- Lines are read back. -/
theorem splitlines_unlines {lines : List Str} (h : ∀ l ∈ lines, ∀ c ∈ l, isLineBreak c = false) :
    splitlines (unlines lines) = lines := by
  induction lines with
  | nil => rfl
  | cons l lines ih =>
    rw [List.forall_mem_cons] at h
    have hunlines : unlines (l :: lines) = l ++ 10 :: unlines lines := List.append_assoc l (str "\n") (unlines lines)
    rw [splitlines, hunlines, splitlinesFrom_line [] h.1]
    exact congrArg _ (ih h.2)

/-- A line break is white space. -/
theorem isLineBreak_of_isSpace {c : ℕ} (h : isSpace c = false) : isLineBreak c = false := by
  unfold isSpace at h
  unfold isLineBreak
  simp only [Bool.or_eq_false_iff, Bool.and_eq_false_iff, decide_eq_false_iff_not, beq_eq_false_iff_ne] at h ⊢
  omega

/-! ### Occurrences -/

/-- A text without `c` occurs on one side of `c`. -/
theorem infix_append_cons {α : Type} {c : α} {w : List α} (hc : c ∉ w) (s t : List α) :
    w <:+: s ++ c :: t ↔ w <:+: s ∨ w <:+: t := by
  constructor
  · rintro ⟨a, b, h⟩
    rcases List.append_eq_append_iff.mp h with ⟨s', rfl, -⟩ | ⟨w', hw', ht⟩
    · exact .inl ⟨a, s', rfl⟩
    · cases w' with
      | nil =>
        rw [List.append_nil] at hw'
        exact .inl ⟨a, [], by rw [List.append_nil, hw']⟩
      | cons x w' =>
        obtain ⟨rfl, rfl⟩ := List.cons.inj ht
        rcases List.append_eq_append_iff.mp hw' with ⟨s', -, rfl⟩ | ⟨a', rfl, hright⟩
        · exact absurd (List.mem_append_right _ List.mem_cons_self) hc
        · cases a' with
          | nil => exact absurd (hright ▸ List.mem_cons_self : c ∈ [] ++ w) hc
          | cons y a' =>
            obtain ⟨rfl, rfl⟩ := List.cons.inj hright
            exact .inr ⟨a', b, rfl⟩
  · rintro (h | h)
    · exact h.trans (List.prefix_append _ _).isInfix
    · exact h.trans ((List.suffix_cons c t).trans (List.suffix_append s _)).isInfix

end Hawal.Lib.Python
