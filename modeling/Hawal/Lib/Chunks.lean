import Mathlib.Data.List.TakeDrop

/-!
# Chunks, tried one after another

`chunksOf k l` cuts a list into chunks of `k` elements and one that may be shorter (`Chunked`).

`Tried R fault as ts o` says that the items `as` were tried in order, up to the first that failed:
`ts` are the tries, each related to its item by `R`, and `o` is the fault of the last one, if any.
A loop that returns at its first error refines this, and `Tried.split` is what it then gives.
-/

namespace Hawal.Lib

universe u v w

variable {α : Type u}

/-- Of `k` elements each, and the last of at least one. -/
structure Chunked (k : ℕ) (ps : List (List α)) : Prop where
  size : ∀ p ∈ ps, 1 ≤ p.length ∧ p.length ≤ k
  full : ∀ p ∈ ps.dropLast, p.length = k

theorem Chunked.nil (k : ℕ) : Chunked k ([] : List (List α)) where
  size _ h := by simp at h
  full _ h := by simp at h

theorem Chunked.singleton {k : ℕ} {p : List α} (h : 1 ≤ p.length) (hk : p.length ≤ k) : Chunked k [p] where
  size q hq := by
    rw [List.mem_singleton] at hq
    exact hq ▸ ⟨h, hk⟩
  full _ h := by simp at h

theorem Chunked.cons {k : ℕ} {p : List α} {ps : List (List α)} (hk : 1 ≤ k) (hp : p.length = k)
    (h : Chunked k ps) : Chunked k (p :: ps) where
  size q hq := by
    rcases List.mem_cons.mp hq with rfl | hq
    · omega
    · exact h.size q hq
  full q hq := by
    cases ps with
    | nil => simp at hq
    | cons p' ps =>
      rw [List.dropLast_cons_cons, List.mem_cons] at hq
      rcases hq with rfl | hq
      · exact hp
      · exact h.full q hq

/-- The chunks before one that is left out are full. -/
theorem Chunked.of_append {k : ℕ} {ps qs : List (List α)} (h : Chunked k (ps ++ qs)) : Chunked k ps where
  size p hp := h.size p (List.mem_append_left qs hp)
  full p hp := by
    apply h.full p
    cases qs with
    | nil => rwa [List.append_nil]
    | cons q qs =>
      rw [List.dropLast_append_cons]
      exact List.mem_append_left _ (List.dropLast_subset ps hp)

/-- The list in chunks of `k` elements. -/
def chunksOf (k : ℕ) (l : List α) : List (List α) :=
  if 0 < k ∧ l ≠ [] then l.take k :: chunksOf k (l.drop k) else []
termination_by l.length
decreasing_by
  rename_i h
  have hl := List.length_pos_iff.mpr h.2
  rw [List.length_drop]
  omega

@[simp] theorem chunksOf_nil (k : ℕ) : chunksOf k ([] : List α) = [] := by
  unfold chunksOf
  simp

theorem chunksOf_of_ne_nil {k : ℕ} (hk : 0 < k) {l : List α} (hl : l ≠ []) :
    chunksOf k l = l.take k :: chunksOf k (l.drop k) := by
  conv_lhs => unfold chunksOf
  rw [if_pos ⟨hk, hl⟩]

/-- The chunks are the list. -/
theorem flatten_chunksOf {k : ℕ} (hk : 0 < k) (l : List α) : (chunksOf k l).flatten = l := by
  induction l using chunksOf.induct k with
  | case1 l h ih => rw [chunksOf_of_ne_nil hk h.2, List.flatten_cons, ih, List.take_append_drop]
  | case2 l h =>
    have hl : l = [] := by
      by_contra hne
      exact h ⟨hk, hne⟩
    rw [hl, chunksOf_nil, List.flatten_nil]

theorem chunked_chunksOf {k : ℕ} (hk : 0 < k) (l : List α) : Chunked k (chunksOf k l) := by
  induction l using chunksOf.induct k with
  | case1 l h ih =>
    have hl := List.length_pos_iff.mpr h.2
    rw [chunksOf_of_ne_nil hk h.2]
    by_cases hle : l.length ≤ k
    · -- the last chunk
      rw [List.drop_eq_nil_of_le hle, chunksOf_nil, List.take_of_length_le hle]
      exact .singleton hl hle
    · apply Chunked.cons hk
      · rw [List.length_take]
        omega
      · exact ih
  | case2 l h =>
    have hl : l = [] := by
      by_contra hne
      exact h ⟨hk, hne⟩
    rw [hl, chunksOf_nil]
    exact .nil k

/-! ### Up to the first failure -/

variable {τ : Type v} {ε : Type w} {R : α → τ → Prop} {fault : τ → Option ε}

/-- The items were tried in order, up to the first that failed. -/
inductive Tried (R : α → τ → Prop) (fault : τ → Option ε) : List α → List τ → Option ε → Prop
  | nil : Tried R fault [] [] none
  | fails {a as t e} : R a t → fault t = some e → Tried R fault (a :: as) [t] (some e)
  | goesOn {a as t ts o} : R a t → fault t = none → Tried R fault as ts o → Tried R fault (a :: as) (t :: ts) o

/-- The tries that went well. -/
def whole (fault : τ → Option ε) (ts : List τ) : List τ := ts.filter fun t => (fault t).isNone

theorem fault_of_mem_whole {t : τ} {ts : List τ} (h : t ∈ whole fault ts) : fault t = none :=
  Option.isNone_iff_eq_none.mp (List.mem_filter.mp h).2

/-- **Either all went well, or all before the last.** -/
theorem Tried.split {as : List α} {ts : List τ} {o : Option ε} (h : Tried R fault as ts o) :
    o = none ∧ List.Forall₂ R as (whole fault ts) ∧ ts = whole fault ts ∨
      ∃ e as₁ a as₂ t, o = some e ∧ as = as₁ ++ a :: as₂ ∧ List.Forall₂ R as₁ (whole fault ts) ∧
        ts = whole fault ts ++ [t] ∧ R a t ∧ fault t = some e := by
  induction h with
  | nil => exact .inl ⟨rfl, .nil, rfl⟩
  | @fails a as t e hr hf =>
    have hwhole : whole fault [t] = [] := by simp [whole, hf]
    rw [hwhole]
    exact .inr ⟨e, [], a, as, t, rfl, rfl, .nil, rfl, hr, hf⟩
  | @goesOn a as t ts o hr hf _ ih =>
    have hwhole : whole fault (t :: ts) = t :: whole fault ts := by simp [whole, hf]
    rw [hwhole]
    rcases ih with ⟨ho, hall, hts⟩ | ⟨e, as₁, a', as₂, t', ho, has, hall, hts, hr', hf'⟩
    · exact .inl ⟨ho, .cons hr hall, by rw [← hts]⟩
    · refine .inr ⟨e, a :: as₁, a', as₂, t', ho, by rw [has, List.cons_append], .cons hr hall, ?_, hr', hf'⟩
      rw [List.cons_append, ← hts]

end Hawal.Lib
