import Mathlib.Data.List.Basic

/-!
# Reading a stream that arrives in segments

A stream is cut into segments, and a read gives at most what is left of the first of them
(`Segmented.read`): the bytes that came with later segments wait for the next read. A read is whole
when it gives as many as it asked for.

* `Aligned` — all reads of these lengths, one after the other, are whole.
* `aligned_iff_ends` — they are exactly when no segment ends within one of them.
-/

namespace Hawal.Lib

/-- The length of a segment. -/
abbrev Cut := {n : ℕ // 0 < n}

/-- What was not read, and the lengths of the segments that it is in; what is beyond is one more. -/
structure Segmented (β : Type*) where
  rest : List β
  cuts : List Cut
  deriving DecidableEq, Repr

namespace Segmented

/-- How many a read of `n` may take. -/
def grant (n : ℕ) : List Cut → ℕ
  | [] => n
  | c :: _ => min n c.val

/-- The segments after a read of `n`. -/
def spend (n : ℕ) : List Cut → List Cut
  | [] => []
  | c :: cuts => if h : n < c.val then ⟨c.val - n, Nat.sub_pos_of_lt h⟩ :: cuts else cuts

variable {β : Type*}

/-- `read(n)`. -/
def read (n : ℕ) (r : Segmented β) : List β × Segmented β :=
  (r.rest.take (grant n r.cuts), ⟨r.rest.drop (grant n r.cuts), spend n r.cuts⟩)

/-- Where pieces of these lengths end, the first of which begins at `a`. -/
def ends (a : ℕ) : List ℕ → List ℕ
  | [] => []
  | n :: ns => (a + n) :: ends (a + n) ns

/-- **Whole reads**: each takes what it asked for. -/
def Aligned : List ℕ → List Cut → Prop
  | [], _ => True
  | n :: ns, cuts => grant n cuts = n ∧ Aligned ns (spend n cuts)

instance decidableAligned : (ns : List ℕ) → (cuts : List Cut) → Decidable (Aligned ns cuts)
  | [], _ => isTrue trivial
  | n :: ns, cuts =>
    have := decidableAligned ns (spend n cuts)
    inferInstanceAs (Decidable (_ ∧ _))

/-! ### One read -/

theorem grant_le (n : ℕ) (cuts : List Cut) : grant n cuts ≤ n := by
  cases cuts with
  | nil => exact Nat.le_refl n
  | cons c cuts => exact Nat.min_le_left n c.val

theorem grant_pos {n : ℕ} (h : 0 < n) (cuts : List Cut) : 0 < grant n cuts := by
  cases cuts with
  | nil => exact h
  | cons c cuts => exact Nat.lt_min.mpr ⟨h, c.property⟩

@[simp] theorem grant_zero (cuts : List Cut) : grant 0 cuts = 0 := Nat.le_zero.mp (grant_le 0 cuts)

@[simp] theorem spend_zero (cuts : List Cut) : spend 0 cuts = cuts := by
  cases cuts with
  | nil => rfl
  | cons c cuts => rw [spend, dif_pos c.property]; rfl

/-- A read of nothing. -/
@[simp] theorem read_zero (r : Segmented β) : r.read 0 = ([], r) := by
  rw [read, grant_zero, spend_zero]
  rfl

/-- A read takes from the front. -/
theorem read_append (n : ℕ) (r : Segmented β) : (r.read n).1 ++ (r.read n).2.rest = r.rest :=
  List.take_append_drop _ _

/-- It leaves no more than there was. -/
theorem length_rest_read_le (n : ℕ) (r : Segmented β) : (r.read n).2.rest.length ≤ r.rest.length := by
  rw [← read_append n r, List.length_append]
  exact Nat.le_add_left _ _

theorem length_read_le (n : ℕ) (r : Segmented β) : (r.read n).1.length ≤ n :=
  Nat.le_trans (List.length_take_le _ _) (grant_le n r.cuts)

theorem read_eq_nil_iff {n : ℕ} (hn : 0 < n) (r : Segmented β) : (r.read n).1 = [] ↔ r.rest = [] := by
  have hpos := grant_pos hn r.cuts
  rw [read, List.take_eq_nil_iff]
  exact or_iff_right (Nat.ne_of_gt hpos)

/-- A whole read. -/
theorem read_whole {n : ℕ} {cuts : List Cut} (h : grant n cuts = n) {part : List β} (hpart : part.length = n)
    (rest : List β) : read n ⟨part ++ rest, cuts⟩ = (part, ⟨rest, spend n cuts⟩) := by
  rw [read]
  dsimp only
  rw [h, ← hpart, List.take_left, List.drop_left]

/-! ### The ends of segments -/

theorem le_of_mem_ends {a x : ℕ} {ns : List ℕ} (h : x ∈ ends a ns) : a ≤ x := by
  induction ns generalizing a with
  | nil => cases h
  | cons n ns ih =>
    rcases List.mem_cons.mp h with rfl | h
    · exact Nat.le_add_right a n
    · exact Nat.le_trans (Nat.le_add_right a n) (ih h)

/-- Segments are not empty. -/
theorem lt_of_mem_ends {a x : ℕ} {cuts : List Cut} (h : x ∈ ends a (cuts.map Subtype.val)) : a < x := by
  cases cuts with
  | nil => cases h
  | cons c cuts =>
    have hc := c.property
    rcases List.mem_cons.mp h with rfl | h
    · exact Nat.lt_add_of_pos_right hc
    · exact Nat.lt_of_lt_of_le (Nat.lt_add_of_pos_right hc) (le_of_mem_ends h)

theorem grant_eq_iff {n : ℕ} {c : Cut} {cuts : List Cut} : grant n (c :: cuts) = n ↔ n ≤ c.val := by
  rw [grant]
  omega

/-- The segments that are left end where they did. -/
theorem mem_ends_spend {n : ℕ} {cuts : List Cut} (h : grant n cuts = n) {a x : ℕ} :
    x ∈ ends (a + n) ((spend n cuts).map Subtype.val) ↔ a + n < x ∧ x ∈ ends a (cuts.map Subtype.val) := by
  cases cuts with
  | nil => simp [spend, ends]
  | cons c cuts =>
    have hle : n ≤ c.val := grant_eq_iff.mp h
    rw [List.map_cons, ends, List.mem_cons]
    by_cases hlt : n < c.val
    · have hsum : a + n + (c.val - n) = a + c.val := by omega
      rw [spend, dif_pos hlt]
      show x ∈ ends (a + n) ((c.val - n) :: cuts.map Subtype.val) ↔ _
      rw [ends, hsum, List.mem_cons]
      refine (and_iff_right_of_imp ?_).symm
      rintro (rfl | hx)
      · omega
      · have := le_of_mem_ends hx
        omega
    · have heq : n = c.val := Nat.le_antisymm hle (Nat.le_of_not_lt hlt)
      rw [spend, dif_neg hlt, ← heq]
      constructor
      · exact fun hx => ⟨lt_of_mem_ends hx, .inr hx⟩
      · rintro ⟨hx, rfl | hmem⟩
        · exact absurd hx (Nat.lt_irrefl _)
        · exact hmem

theorem aligned_iff_ends_from {ns : List ℕ} {cuts : List Cut} (a : ℕ) :
    Aligned ns cuts ↔
      ∀ x ∈ ends a (cuts.map Subtype.val), x ∈ ends a ns ∨ ∀ y ∈ ends a ns, y ≤ x := by
  induction ns generalizing cuts a with
  | nil => simp [Aligned, ends]
  | cons n ns ih =>
    rw [Aligned, ih (a + n), ends]
    constructor
    · rintro ⟨hgrant, hrest⟩ x hx
      by_cases hlt : a + n < x
      · rcases hrest x ((mem_ends_spend hgrant).mpr ⟨hlt, hx⟩) with hmem | hbeyond
        · exact .inl (List.mem_cons_of_mem _ hmem)
        · exact .inr (List.forall_mem_cons.mpr ⟨Nat.le_of_lt hlt, hbeyond⟩)
      · -- the first segment is not shorter than the read
        cases cuts with
        | nil => cases hx
        | cons c cuts =>
          have hle : n ≤ c.val := grant_eq_iff.mp hgrant
          have hend : a + c.val ≤ x := by
            rcases List.mem_cons.mp hx with rfl | hx
            · exact Nat.le_refl _
            · exact le_of_mem_ends hx
          have heq : x = a + n := by omega
          exact .inl (heq ▸ List.mem_cons_self)
    · intro h
      have hgrant : grant n cuts = n := by
        cases cuts with
        | nil => rfl
        | cons c cuts =>
          rw [grant_eq_iff]
          rcases h (a + c.val) List.mem_cons_self with hmem | hbeyond
          · rcases List.mem_cons.mp hmem with heq | hmem
            · omega
            · have := le_of_mem_ends hmem
              omega
          · have := hbeyond _ List.mem_cons_self
            omega
      refine ⟨hgrant, fun x hx => ?_⟩
      obtain ⟨hlt, hx⟩ := (mem_ends_spend hgrant).mp hx
      rcases h x hx with hmem | hbeyond
      · rcases List.mem_cons.mp hmem with rfl | hmem
        · exact absurd hlt (Nat.lt_irrefl _)
        · exact .inl hmem
      · exact .inr fun y hy => hbeyond y (List.mem_cons_of_mem _ hy)

/-- **When all reads are whole**: each segment ends where a read does, or after the last one. -/
theorem aligned_iff_ends {ns : List ℕ} {cuts : List Cut} :
    Aligned ns cuts ↔
      ∀ x ∈ ends 0 (cuts.map Subtype.val), x ∈ ends 0 ns ∨ ∀ y ∈ ends 0 ns, y ≤ x := aligned_iff_ends_from 0

end Segmented

end Hawal.Lib
