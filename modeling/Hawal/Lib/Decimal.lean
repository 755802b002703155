import Hawal.Lib.Python
import Mathlib.Algebra.Group.Nat.Defs

/-!
# Reading numbers back

What `int` makes of decimal digits, and that it reads the numbers that `str` prints, as long as they
have no more digits than it takes.
-/

namespace Hawal.Lib.Python

/-- The number that digits of ASCII spell after those of `acc`. -/
def spelledFrom (acc : ℕ) (ds : Str) : ℕ := ds.foldl (fun n c => n * 10 + (c - 48)) acc

/-- The number that digits of ASCII spell. -/
def spelled (ds : Str) : ℕ := spelledFrom 0 ds

theorem digitValue_of_isDigit {c : ℕ} (h : IsDigit c) : digitValue c = some (c - 48) := by
  have hten : ∀ d < 10, digitValue (48 + d) = some d := by decide
  have hc := hten (c - 48) (by have := h.2; omega)
  rwa [Nat.add_sub_cancel' h.1] at hc

theorem parseDigits_isDigit {ds : Str} (h : ∀ c ∈ ds, IsDigit c) (acc : ℕ) :
    parseDigits true acc ds = some (spelledFrom acc ds) := by
  induction ds generalizing acc with
  | nil => rfl
  | cons c ds ih =>
    have hc : IsDigit c := h c List.mem_cons_self
    have hne : c ≠ 0x5F := by have := hc.2; omega
    rw [parseDigits, if_neg hne, digitValue_of_isDigit hc, Option.bind_some,
      ih (fun d hd => h d (List.mem_cons_of_mem _ hd))]
    rfl

/-- Digits are read as the number they spell. -/
theorem parseDigits_eq {ds : Str} (hne : ds ≠ []) (h : ∀ c ∈ ds, IsDigit c) :
    parseDigits false 0 ds = some (spelled ds) := by
  cases ds with
  | nil => exact absurd rfl hne
  | cons c ds =>
    have hc : IsDigit c := h c List.mem_cons_self
    have hunderscore : c ≠ 0x5F := by have := hc.2; omega
    rw [parseDigits, if_neg hunderscore, digitValue_of_isDigit hc, Option.bind_some,
      parseDigits_isDigit (fun d hd => h d (List.mem_cons_of_mem _ hd))]
    rfl

theorem spelledFrom_lt {ds : Str} (h : ∀ c ∈ ds, IsDigit c) {acc k : ℕ} (hacc : acc < 10 ^ k) :
    spelledFrom acc ds < 10 ^ (k + ds.length) := by
  induction ds generalizing acc k with
  | nil => exact hacc
  | cons c ds ih =>
    have hc : IsDigit c := h c List.mem_cons_self
    have hnext : acc * 10 + (c - 48) < 10 ^ (k + 1) := by
      have := hc.2
      rw [Nat.pow_succ]
      omega
    have hrest := ih (fun d hd => h d (List.mem_cons_of_mem _ hd)) hnext
    rw [List.length_cons, Nat.add_comm ds.length 1, ← Nat.add_assoc]
    exact hrest

theorem spelled_lt {ds : Str} (h : ∀ c ∈ ds, IsDigit c) : spelled ds < 10 ^ ds.length := by
  have hzero : 0 < 10 ^ 0 := Nat.one_pos
  have hlt := spelledFrom_lt h hzero
  rwa [Nat.zero_add] at hlt

/-- The digits of a number spell it. -/
theorem spelled_natDigits (n : ℕ) : spelled (natDigits n) = n := by
  have hfold : ∀ (cs : List Char) (acc : ℕ), spelledFrom acc (cs.map Char.toNat) = Nat.ofDigitChars 10 cs acc := by
    intro cs
    induction cs with
    | nil => exact fun _ => rfl
    | cons c cs ih =>
      intro acc
      rw [List.map_cons, Nat.ofDigitChars_cons, ← ih, Nat.mul_comm]
      rfl
  rw [spelled, natDigits, hfold, Nat.ofDigitChars_ten_toDigits]

/-- A number has as many digits as any digits that spell it, or fewer. -/
theorem length_natDigits_spelled {ds : Str} (hne : ds ≠ []) (h : ∀ c ∈ ds, IsDigit c) :
    (natDigits (spelled ds)).length ≤ ds.length := by
  rw [natDigits, List.length_map, Nat.length_toDigits_le_iff (by decide) (List.length_pos_of_ne_nil hne)]
  exact spelled_lt h

theorem natDigits_ne_nil (n : ℕ) : natDigits n ≠ [] := fun h => Nat.toDigits_ne_nil (List.map_eq_nil_iff.mp h)

theorem decimal_ne_nil (n : ℤ) : decimal n ≠ [] := by
  cases n with
  | ofNat n => exact natDigits_ne_nil n
  | negSucc n => exact List.cons_ne_nil _ _

/-- A number does not begin with zero, unless it is zero. -/
theorem natDigits_eq_zero_cons {n : ℕ} {ds : Str} (h : natDigits n = 48 :: ds) : ds = [] := by
  by_contra hne
  have hdigits : ∀ c ∈ ds, IsDigit c := fun c hc => isDigit_of_mem_natDigits (h ▸ List.mem_cons_of_mem _ hc)
  have hvalue : n = spelled ds := by
    rw [← spelled_natDigits n, h]
    rfl
  have hlen := length_natDigits_spelled hne hdigits
  rw [← hvalue, h, List.length_cons] at hlen
  omega

/-- There is nothing to strip. -/
theorem stripBy_of_forall {p : ℕ → Bool} {s : Str} (h : ∀ c ∈ s, p c = false) : stripBy p s = s := by
  have hstart : s.dropWhile p = s := by
    cases s with
    | nil => rfl
    | cons c s => rw [List.dropWhile_cons_of_neg (by rw [h c List.mem_cons_self]; exact Bool.false_ne_true)]
  have hend : s.rdropWhile p = s := by
    rw [List.rdropWhile]
    have hrev : s.reverse.dropWhile p = s.reverse := by
      cases hs : s.reverse with
      | nil => rfl
      | cons c t =>
        have hc : c ∈ s := List.mem_reverse.mp (hs ▸ List.mem_cons_self)
        rw [List.dropWhile_cons_of_neg (by rw [h c hc]; exact Bool.false_ne_true)]
    rw [hrev, List.reverse_reverse]
  rw [stripBy, hstart, hend]

theorem isAsciiSpace_of_isDigit {c : ℕ} (h : IsDigit c) : isAsciiSpace c = false := by
  unfold isAsciiSpace
  rw [Bool.or_eq_false_iff, Bool.and_eq_false_iff]
  have := h.1
  exact ⟨.inr (decide_eq_false (by omega)), beq_false_of_ne (by omega)⟩

/-- The digits of a number without a sign. -/
theorem filter_digits {ds : Str} (h : ∀ c ∈ ds, IsDigit c) : (ds.filter fun c => (digitValue c).isSome) = ds := by
  refine List.filter_eq_self.mpr fun c hc => ?_
  rw [digitValue_of_isDigit (h c hc)]
  rfl

/-- `int` of digits. -/
theorem parseInt_digits {ds : Str} (hne : ds ≠ []) (h : ∀ c ∈ ds, IsDigit c) :
    parseInt ds = if maxStrDigits < ds.length then none else some (spelled ds : ℤ) := by
  have hascii : (ds.all fun c => decide (c < 128)) = true := by
    refine List.all_eq_true.mpr fun c hc => decide_eq_true ?_
    have := (h c hc).2
    omega
  have hstrip : stripBy isAsciiSpace ds = ds := stripBy_of_forall fun c hc => isAsciiSpace_of_isDigit (h c hc)
  unfold parseInt
  rw [hascii, if_pos rfl]
  dsimp only
  rw [hstrip, filter_digits h]
  split
  · rfl
  · split
    · exact absurd (h 0x2D List.mem_cons_self).1 (by decide)
    · exact absurd (h 0x2B List.mem_cons_self).1 (by decide)
    · rw [parseDigits_eq hne h]
      rfl

/-- `int` of digits after a minus. -/
theorem parseInt_neg {ds : Str} (hne : ds ≠ []) (h : ∀ c ∈ ds, IsDigit c) :
    parseInt (45 :: ds) = if maxStrDigits < ds.length then none else some (-(spelled ds : ℤ)) := by
  have hascii : ((45 :: ds).all fun c => decide (c < 128)) = true := by
    refine List.all_eq_true.mpr fun c hc => decide_eq_true ?_
    rcases List.mem_cons.mp hc with rfl | hc
    · decide
    · have := (h c hc).2
      omega
  have hstrip : stripBy isAsciiSpace (45 :: ds) = 45 :: ds := by
    refine stripBy_of_forall fun c hc => ?_
    rcases List.mem_cons.mp hc with rfl | hc
    · rfl
    · exact isAsciiSpace_of_isDigit (h c hc)
  have hfilter : ((45 :: ds).filter fun c => (digitValue c).isSome) = ds := by
    rw [List.filter_cons_of_neg (by decide), filter_digits h]
  unfold parseInt
  rw [hascii, if_pos rfl]
  dsimp only
  rw [hstrip, hfilter]
  split
  · rfl
  · show Option.map (fun n : ℤ => -n) ((parseDigits false 0 ds).bind fun k => some (k : ℤ)) = _
    rw [parseDigits_eq hne h]
    rfl

/-- `int` reads a number that `str` prints, unless it has too many digits. -/
theorem parseInt_decimal {n : ℤ} (h : (natDigits n.natAbs).length ≤ maxStrDigits) : parseInt (decimal n) = some n := by
  cases n with
  | ofNat n =>
    have hlen : ¬ maxStrDigits < (natDigits n).length := Nat.not_lt.mpr h
    rw [decimal, parseInt_digits (natDigits_ne_nil n) fun c hc => isDigit_of_mem_natDigits hc, if_neg hlen,
      spelled_natDigits]
    rfl
  | negSucc n =>
    have hlen : ¬ maxStrDigits < (natDigits (n + 1)).length := Nat.not_lt.mpr h
    show parseInt (45 :: natDigits (n + 1)) = _
    rw [parseInt_neg (natDigits_ne_nil _) fun c hc => isDigit_of_mem_natDigits hc, if_neg hlen, spelled_natDigits]
    rfl

end Hawal.Lib.Python
