import Mathlib.Data.List.Nodup

/-!
# Tables with a primary key

The rows of a table, in the order in which they were inserted; no two have one key. The
operations are those of SQL that are about one row: `SELECT`, `INSERT … ON CONFLICT DO UPDATE`,
`UPDATE` and `DELETE`, each by its key.
-/

namespace Hawal.Lib

universe u v w

/-- Rows of type `ρ`, each known by its `key`. -/
structure Table {ρ : Type u} {κ : Type v} (key : ρ → κ) where
  /-- The rows. -/
  rows : List ρ
  /-- No two rows have one key. -/
  nodup : (rows.map key).Nodup

namespace Table

variable {ρ : Type u} {κ : Type v} {key : ρ → κ}

/-- The table without rows. -/
def empty : Table key := ⟨[], List.nodup_nil⟩

instance : Membership ρ (Table key) := ⟨fun t r => r ∈ t.rows⟩

theorem mem_rows {t : Table key} {r : ρ} : r ∈ t.rows ↔ r ∈ t := Iff.rfl

theorem not_mem_empty (r : ρ) : r ∉ (empty : Table key) := List.not_mem_nil

/-- Rows are known by their keys. -/
theorem eq_of_key {t : Table key} {r r' : ρ} (h : r ∈ t) (h' : r' ∈ t) (hk : key r = key r') : r = r' :=
  List.inj_on_of_nodup_map t.nodup h h' hk

variable [DecidableEq κ]

/-- `SELECT … WHERE key = k`. -/
def find (t : Table key) (k : κ) : Option ρ := t.rows.find? fun r => decide (key r = k)

theorem find_eq_some {t : Table key} {k : κ} {r : ρ} : t.find k = some r ↔ r ∈ t ∧ key r = k := by
  constructor
  · intro h
    exact ⟨List.mem_of_find?_eq_some h, of_decide_eq_true (List.find?_some h :)⟩
  · rintro ⟨hr, rfl⟩
    cases hf : t.find (key r) with
    | none =>
      have hne : ¬ decide (key r = key r) = true := List.find?_eq_none.mp hf r hr
      exact absurd (decide_eq_true rfl) hne
    | some r' =>
      have hr' : r' ∈ t := List.mem_of_find?_eq_some hf
      have hk : key r' = key r := of_decide_eq_true (List.find?_some hf :)
      rw [eq_of_key hr' hr hk]

theorem find_eq_none {t : Table key} {k : κ} : t.find k = none ↔ ∀ r ∈ t, key r ≠ k := by
  simp [find, List.find?_eq_none, mem_rows]

/-- A column that `f` leaves alone. -/
theorem map_ite {γ : Type w} {col : ρ → γ} {f : ρ → ρ} (hcol : ∀ r, col (f r) = col r) (k : κ) (rows : List ρ) :
    (rows.map fun r => if key r = k then f r else r).map col = rows.map col := by
  rw [List.map_map]
  refine List.map_congr_left fun r _ => ?_
  rw [Function.comp_apply]
  split
  · exact hcol r
  · rfl

/-- `UPDATE … WHERE key = k`, with an `f` that leaves the key alone. -/
def update (t : Table key) (k : κ) (f : ρ → ρ) (hf : ∀ r, key (f r) = key r) : Table key where
  rows := t.rows.map fun r => if key r = k then f r else r
  nodup := by
    rw [map_ite hf]
    exact t.nodup

theorem mem_update {t : Table key} {k : κ} {f : ρ → ρ} {hf : ∀ r, key (f r) = key r} {r : ρ} :
    r ∈ t.update k f hf ↔ (∃ r₀ ∈ t, key r₀ = k ∧ f r₀ = r) ∨ r ∈ t ∧ key r ≠ k := by
  constructor
  · intro h
    obtain ⟨r₀, hr₀, he⟩ := List.mem_map.mp h
    split at he
    · rename_i hk
      exact .inl ⟨r₀, hr₀, hk, he⟩
    · rename_i hk
      exact .inr (he ▸ ⟨hr₀, hk⟩)
  · rintro (⟨r₀, hr₀, hk, he⟩ | ⟨hr, hk⟩)
    · exact List.mem_map.mpr ⟨r₀, hr₀, by rw [if_pos hk, he]⟩
    · exact List.mem_map.mpr ⟨r, hr, if_neg hk⟩

/-- `UPDATE` of every row. -/
def updateAll (t : Table key) (f : ρ → ρ) (hf : ∀ r, key (f r) = key r) : Table key where
  rows := t.rows.map f
  nodup := by
    have hkeys : key ∘ f = key := funext hf
    rw [List.map_map, hkeys]
    exact t.nodup

omit [DecidableEq κ] in
theorem mem_updateAll {t : Table key} {f : ρ → ρ} {hf : ∀ r, key (f r) = key r} {r : ρ} :
    r ∈ t.updateAll f hf ↔ ∃ r₀ ∈ t, f r₀ = r := List.mem_map

/-- `DELETE … WHERE key = k`. -/
def delete (t : Table key) (k : κ) : Table key where
  rows := t.rows.filter fun r => decide (key r ≠ k)
  nodup := t.nodup.sublist (List.filter_sublist.map key)

theorem mem_delete {t : Table key} {k : κ} {r : ρ} : r ∈ t.delete k ↔ r ∈ t ∧ key r ≠ k := by
  show r ∈ t.rows.filter _ ↔ _
  rw [List.mem_filter, decide_eq_true_eq, mem_rows]

/-- `INSERT … ON CONFLICT(key) DO UPDATE`. -/
def upsert (t : Table key) (new : ρ) (merge : ρ → ρ) (hm : ∀ r, key (merge r) = key r) : Table key :=
  if h : key new ∈ t.rows.map key then t.update (key new) merge hm
  else ⟨t.rows ++ [new], by
    rw [List.map_append]
    exact List.Nodup.append t.nodup (List.nodup_singleton _) (List.disjoint_singleton.mpr h)⟩

/-- After an upsert the row of the new key is the new one, or the merged one. -/
theorem mem_upsert {t : Table key} {new : ρ} {merge : ρ → ρ} {hm : ∀ r, key (merge r) = key r} {r : ρ} :
    r ∈ t.upsert new merge hm ↔
      (t.find (key new) = none ∧ r = new ∨ ∃ r₀, t.find (key new) = some r₀ ∧ r = merge r₀) ∨
        r ∈ t ∧ key r ≠ key new := by
  unfold upsert
  split
  · rename_i h
    obtain ⟨r₀, hr₀, hk⟩ := List.mem_map.mp h
    have hf : t.find (key new) = some r₀ := find_eq_some.mpr ⟨hr₀, hk⟩
    rw [mem_update]
    refine or_congr ?_ Iff.rfl
    constructor
    · rintro ⟨r₁, hr₁, hk₁, rfl⟩
      exact .inr ⟨r₁, find_eq_some.mpr ⟨hr₁, hk₁⟩, rfl⟩
    · rintro (⟨hn, -⟩ | ⟨r₁, hr₁, rfl⟩)
      · rw [hf] at hn
        cases hn
      · obtain ⟨hr₁, hk₁⟩ := find_eq_some.mp hr₁
        exact ⟨r₁, hr₁, hk₁, rfl⟩
  · rename_i h
    have hne : ∀ r ∈ t, key r ≠ key new := fun r hr hk => h (List.mem_map.mpr ⟨r, hr, hk⟩)
    have hf : t.find (key new) = none := find_eq_none.mpr hne
    show r ∈ t.rows ++ [new] ↔ _
    rw [List.mem_append, List.mem_singleton]
    constructor
    · rintro (hr | rfl)
      · exact .inr ⟨hr, hne r hr⟩
      · exact .inl (.inl ⟨hf, rfl⟩)
    · rintro ((⟨-, rfl⟩ | ⟨r₀, hr₀, -⟩) | ⟨hr, -⟩)
      · exact .inr rfl
      · rw [hf] at hr₀
        cases hr₀
      · exact .inl hr

theorem find_upsert {t : Table key} {new : ρ} {merge : ρ → ρ} {hm : ∀ r, key (merge r) = key r} (k : κ) :
    (t.upsert new merge hm).find k = if key new = k then some (((t.find k).map merge).getD new) else t.find k := by
  ext r
  rw [find_eq_some, mem_upsert]
  by_cases hk : key new = k
  · subst hk
    rw [if_pos rfl, Option.some.injEq]
    cases hf : t.find (key new) with
    | none =>
      rw [Option.map_none, Option.getD_none]
      constructor
      · rintro ⟨(⟨-, rfl⟩ | ⟨r₀, hr₀, -⟩) | ⟨-, hne⟩, hr⟩
        · rfl
        · cases hr₀
        · exact absurd hr hne
      · rintro rfl
        exact ⟨.inl (.inl ⟨rfl, rfl⟩), rfl⟩
    | some o =>
      rw [Option.map_some, Option.getD_some]
      constructor
      · rintro ⟨(⟨hn, -⟩ | ⟨r₀, hr₀, rfl⟩) | ⟨-, hne⟩, hr⟩
        · cases hn
        · exact congrArg merge (Option.some.inj hr₀)
        · exact absurd hr hne
      · rintro rfl
        exact ⟨.inl (.inr ⟨o, rfl, rfl⟩), (hm o).trans (find_eq_some.mp hf).2⟩
  · rw [if_neg hk, find_eq_some]
    constructor
    · rintro ⟨(⟨-, rfl⟩ | ⟨o, ho, rfl⟩) | ⟨hr, -⟩, hrk⟩
      · exact absurd hrk hk
      · exact absurd ((find_eq_some.mp ho).2.symm.trans ((hm o).symm.trans hrk)) hk
      · exact ⟨hr, hrk⟩
    · rintro ⟨hr, hrk⟩
      exact ⟨.inr ⟨hr, fun hne => hk (hne.symm.trans hrk)⟩, hrk⟩

/-! ### Rows that a statement leaves alone -/

/-- `UPDATE … WHERE key = k` leaves the other rows as they are, and in their order. -/
theorem filter_update {t : Table key} {k : κ} {f : ρ → ρ} (hf : ∀ r, key (f r) = key r) {p : ρ → Bool}
    (hp : ∀ r, key r = k → p r = false) : (t.update k f hf).rows.filter p = t.rows.filter p := by
  show (t.rows.map fun r => if key r = k then f r else r).filter p = _
  induction t.rows with
  | nil => rfl
  | cons r rows ih =>
    rw [List.map_cons, List.filter_cons, List.filter_cons, ih]
    split
    · rename_i hk
      rw [hp r hk, hp (f r) ((hf r).trans hk)]
      rfl
    · rfl

/-- So does an upsert. -/
theorem filter_upsert {t : Table key} {new : ρ} {merge : ρ → ρ} (hm : ∀ r, key (merge r) = key r) {p : ρ → Bool}
    (hp : ∀ r, key r = key new → p r = false) : (t.upsert new merge hm).rows.filter p = t.rows.filter p := by
  unfold upsert
  split
  · exact filter_update hm hp
  · show (t.rows ++ [new]).filter p = _
    rw [List.filter_append, List.filter_singleton, hp new rfl]
    exact List.append_nil _

/-! ### Unique columns -/

section Unique

variable {γ : Type w} {col : ρ → γ} {t : Table key}

omit [DecidableEq κ] in
/-- `UNIQUE (col)`. -/
def Unique (col : ρ → γ) (t : Table key) : Prop := ∀ r ∈ t, ∀ r' ∈ t, col r = col r' → r = r'

omit [DecidableEq κ] in
/-- Rows that each have the key and the column of a row of before. -/
theorem Unique.of_origin {t' : Table key} (h : t.Unique col)
    (horigin : ∀ r ∈ t', ∃ o ∈ t, key o = key r ∧ col o = col r) : t'.Unique col := by
  intro r hr r' hr' hc
  obtain ⟨o, ho, hk, hcol⟩ := horigin r hr
  obtain ⟨o', ho', hk', hcol'⟩ := horigin r' hr'
  have heq : o = o' := h o ho o' ho' (by rw [hcol, hcol', hc])
  exact eq_of_key hr hr' (by rw [← hk, ← hk', heq])

theorem Unique.update {k : κ} {f : ρ → ρ} {hf : ∀ r, key (f r) = key r} (h : t.Unique col)
    (hcol : ∀ r, col (f r) = col r) : (t.update k f hf).Unique col := by
  refine h.of_origin fun r hr => ?_
  rcases mem_update.mp hr with ⟨o, ho, -, rfl⟩ | ⟨hr, -⟩
  · exact ⟨o, ho, (hf o).symm, (hcol o).symm⟩
  · exact ⟨r, hr, rfl, rfl⟩

omit [DecidableEq κ] in
theorem Unique.updateAll {f : ρ → ρ} {hf : ∀ r, key (f r) = key r} (h : t.Unique col)
    (hcol : ∀ r, col (f r) = col r) : (t.updateAll f hf).Unique col := by
  refine h.of_origin fun r hr => ?_
  obtain ⟨o, ho, rfl⟩ := mem_updateAll.mp hr
  exact ⟨o, ho, (hf o).symm, (hcol o).symm⟩

theorem Unique.delete {k : κ} (h : t.Unique col) : (t.delete k).Unique col :=
  h.of_origin fun r hr => ⟨r, (mem_delete.mp hr).1, rfl, rfl⟩

/-- An upsert keeps a column unique that merging leaves alone, if a row that is really new has
a new value in it. -/
theorem Unique.upsert {new : ρ} {merge : ρ → ρ} {hm : ∀ r, key (merge r) = key r} (h : t.Unique col)
    (hcol : ∀ r, col (merge r) = col r) (hnew : t.find (key new) = none → ∀ r ∈ t, col r ≠ col new) :
    (t.upsert new merge hm).Unique col := by
  cases hf : t.find (key new) with
  | some r₀ =>
    refine h.of_origin fun r hr => ?_
    rcases mem_upsert.mp hr with (⟨hn, -⟩ | ⟨o, ho, rfl⟩) | ⟨hr, -⟩
    · rw [hf] at hn
      cases hn
    · exact ⟨o, (find_eq_some.mp ho).1, (hm o).symm, (hcol o).symm⟩
    · exact ⟨r, hr, rfl, rfl⟩
  | none =>
    have hrow : ∀ r ∈ t.upsert new merge hm, r = new ∨ r ∈ t := by
      intro r hr
      rcases mem_upsert.mp hr with (⟨-, rfl⟩ | ⟨o, ho, -⟩) | ⟨hr, -⟩
      · exact .inl rfl
      · rw [hf] at ho
        cases ho
      · exact .inr hr
    intro r hr r' hr' hc
    rcases hrow r hr with rfl | hold
    · rcases hrow r' hr' with rfl | hold'
      · rfl
      · exact absurd hc.symm (hnew hf r' hold')
    · rcases hrow r' hr' with rfl | hold'
      · exact absurd hc (hnew hf r hold)
      · exact h r hold r' hold' hc

end Unique

end Table

end Hawal.Lib
