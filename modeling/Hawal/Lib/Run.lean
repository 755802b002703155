import Mathlib.Data.List.Basic

/-!
# Runs of a guarded step function

A system is given by a partial step function `step : σ → α → Option σ`: `some s'`
when action `a` is possible in `s`, and `none` when it is not. `exec` runs a list
of actions. An invariant is proved of one step and then holds of every run
(`exec_inv`); `Along` says that every step of a run meets a condition on the state
it is taken in, and `exec_inv_along` is the invariant rule for such runs.
-/

namespace Hawal.Lib

universe u v w

variable {σ : Type u} {α : Type v}

/-- Run a list of actions from the left; `none` when one of them is not possible. -/
def exec (step : σ → α → Option σ) : σ → List α → Option σ
  | s, [] => some s
  | s, a :: as => (step s a).bind fun s' => exec step s' as

variable {step : σ → α → Option σ}

@[simp] theorem exec_nil (s : σ) : exec step s [] = some s := rfl

theorem exec_cons (s : σ) (a : α) (as : List α) :
    exec step s (a :: as) = (step s a).bind fun s' => exec step s' as := rfl

theorem exec_cons_eq_some {s s' : σ} {a : α} {as : List α} :
    exec step s (a :: as) = some s' ↔ ∃ t, step s a = some t ∧ exec step t as = some s' := by
  rw [exec_cons, Option.bind_eq_some_iff]

/-- A run of `as ++ bs` is a run of `as` and then one of `bs`. -/
theorem exec_append (s : σ) (as bs : List α) :
    exec step s (as ++ bs) = (exec step s as).bind fun t => exec step t bs := by
  induction as generalizing s with
  | nil => rfl
  | cons a as ih =>
    rw [List.cons_append, exec_cons, exec_cons]
    cases step s a with
    | none => rfl
    | some t => exact ih t

theorem exec_append_eq_some {s s' : σ} {as bs : List α} :
    exec step s (as ++ bs) = some s' ↔ ∃ t, exec step s as = some t ∧ exec step t bs = some s' := by
  rw [exec_append, Option.bind_eq_some_iff]

/-- The state that a run or a step ends in, by evaluation. -/
theorem exists_of_any {o : Option σ} {P : σ → Prop} [DecidablePred P]
    (h : o.any (fun t => decide (P t)) = true) : ∃ t, o = some t ∧ P t := by
  cases o with
  | none => exact nomatch h
  | some t => exact ⟨t, rfl, of_decide_eq_true h⟩

/-- **Invariants**: what every step preserves holds at the end of every run. -/
theorem exec_inv {I : σ → Prop} (hI : ∀ s a s', I s → step s a = some s' → I s') :
    ∀ {as : List α} {s s' : σ}, I s → exec step s as = some s' → I s' := by
  intro as
  induction as with
  | nil =>
    intro s s' hs h
    rw [exec_nil, Option.some.injEq] at h
    exact h ▸ hs
  | cons a as ih =>
    intro s s' hs h
    obtain ⟨t, ha, ht⟩ := exec_cons_eq_some.mp h
    exact ih (hI s a t hs ha) ht

/-- Every step of the run meets `P`, a condition on the state before it and the action. -/
def Along (step : σ → α → Option σ) (P : σ → α → Prop) : σ → List α → Prop
  | _, [] => True
  | s, a :: as => P s a ∧ ∀ s', step s a = some s' → Along step P s' as

instance decidableAlong {P : σ → α → Prop} [∀ s a, Decidable (P s a)] :
    (as : List α) → (s : σ) → Decidable (Along step P s as)
  | [], _ => isTrue trivial
  | a :: as, s =>
    match h : step s a with
    | none => decidable_of_iff (P s a) ⟨fun hp => ⟨hp, fun s' hs => by rw [h] at hs; cases hs⟩, And.left⟩
    | some t =>
      have : Decidable (Along step P t as) := decidableAlong as t
      decidable_of_iff (P s a ∧ Along step P t as)
        ⟨fun hp => ⟨hp.1, fun s' hs => by rw [h] at hs; cases hs; exact hp.2⟩, fun hp => ⟨hp.1, hp.2 t h⟩⟩

theorem Along.append_left {P : σ → α → Prop} {as bs : List α} :
    ∀ {s : σ}, Along step P s (as ++ bs) → Along step P s as := by
  induction as with
  | nil => intro s _; trivial
  | cons a as ih => exact fun h => ⟨h.1, fun s' hs => ih (h.2 s' hs)⟩

/-- **Invariants of guarded runs**: what every step that meets `P` preserves holds at
the end of every run whose steps all meet `P`. -/
theorem exec_inv_along {I : σ → Prop} {P : σ → α → Prop}
    (hI : ∀ s a s', I s → P s a → step s a = some s' → I s') :
    ∀ {as : List α} {s s' : σ}, I s → Along step P s as → exec step s as = some s' → I s' := by
  intro as
  induction as with
  | nil =>
    intro s s' hs _ h
    rw [exec_nil, Option.some.injEq] at h
    exact h ▸ hs
  | cons a as ih =>
    intro s s' hs hP h
    obtain ⟨t, ha, ht⟩ := exec_cons_eq_some.mp h
    exact ih (hI s a t hs hP.1 ha) (hP.2 t ha) ht

/-- **Invariants that count**: what every step with an action that meets `P` preserves, at the next count, holds
at the end of every run of such actions. -/
theorem exec_inv_counted {I : ℕ → σ → Prop} {P : α → Prop}
    (hI : ∀ k s a s', I k s → P a → step s a = some s' → I (k + 1) s') :
    ∀ {as : List α} {k : ℕ} {s s' : σ}, I k s → (∀ a ∈ as, P a) → exec step s as = some s' → I (k + as.length) s' := by
  intro as
  induction as with
  | nil =>
    intro k s s' hs _ h
    rw [exec_nil, Option.some.injEq] at h
    exact h ▸ hs
  | cons a as ih =>
    intro k s s' hs hP h
    rw [List.forall_mem_cons] at hP
    obtain ⟨t, ha, ht⟩ := exec_cons_eq_some.mp h
    have hrest := ih (hI k s a t hs hP.1 ha) hP.2 ht
    rwa [Nat.add_assoc, Nat.add_comm 1] at hrest

/-- The same for an invariant that does not count. -/
theorem exec_inv_of {I : σ → Prop} {P : α → Prop} (hI : ∀ s a s', I s → P a → step s a = some s' → I s')
    {as : List α} {s s' : σ} (hs : I s) (has : ∀ a ∈ as, P a) (h : exec step s as = some s') : I s' :=
  exec_inv_counted (I := fun _ => I) (k := 0) (fun _ => hI) hs has h

/-- What a later state says of the steps that led to it: if `G` of the next state gives `G` of
this one and `P` of the step between them, then `G` of the last state gives `P` of all steps. -/
theorem along_of_last {I G : σ → Prop} {P : σ → α → Prop} (hI : ∀ s a s', I s → step s a = some s' → I s')
    (hG : ∀ s a s', I s → step s a = some s' → G s' → G s ∧ P s a) :
    ∀ {as : List α} {s s' : σ}, I s → exec step s as = some s' → G s' → G s ∧ Along step P s as := by
  intro as
  induction as with
  | nil =>
    intro s s' _ h hg
    rw [exec_nil, Option.some.injEq] at h
    exact ⟨h ▸ hg, trivial⟩
  | cons a as ih =>
    intro s s' hs h hg
    obtain ⟨t, ha, ht⟩ := exec_cons_eq_some.mp h
    obtain ⟨hgt, hrest⟩ := ih (hI s a t hs ha) ht hg
    obtain ⟨hgs, hP⟩ := hG s a t hs ha hgt
    refine ⟨hgs, hP, fun t' ha' => ?_⟩
    rw [ha, Option.some.injEq] at ha'
    exact ha' ▸ hrest

/-- **When a bad state is avoided**: if, out of a good state, `P` is exactly the condition
for the next state to be good, then the runs whose steps all meet `P` are exactly
those that never come to a bad state. -/
theorem along_iff_never {I Bad : σ → Prop} {P : σ → α → Prop}
    (hI : ∀ s a s', I s → step s a = some s' → I s')
    (hP : ∀ s a s', I s → ¬ Bad s → step s a = some s' → (P s a ↔ ¬ Bad s')) :
    ∀ {as : List α} {s s' : σ}, I s → ¬ Bad s → exec step s as = some s' →
      (Along step P s as ↔ ∀ pre t, pre <+: as → exec step s pre = some t → ¬ Bad t) := by
  intro as
  induction as with
  | nil =>
    intro s s' _ hs _
    refine iff_of_true trivial fun pre t hpre ht => ?_
    rw [List.prefix_nil.mp hpre, exec_nil, Option.some.injEq] at ht
    exact ht ▸ hs
  | cons a as ih =>
    intro s s' hIs hs h
    obtain ⟨t, ha, ht⟩ := exec_cons_eq_some.mp h
    have hIt : I t := hI s a t hIs ha
    have hstep : P s a ↔ ¬ Bad t := hP s a t hIs hs ha
    constructor
    · rintro ⟨hPa, hrest⟩ pre u hpre hu
      rcases List.prefix_cons_iff.mp hpre with rfl | ⟨pre, rfl, hpre'⟩
      · rw [exec_nil, Option.some.injEq] at hu
        exact hu ▸ hs
      · obtain ⟨t', ha', hu⟩ := exec_cons_eq_some.mp hu
        rw [ha, Option.some.injEq] at ha'
        subst ha'
        exact (ih hIt (hstep.mp hPa) ht).mp (hrest t ha) pre u hpre' hu
    · intro hgood
      have htg : ¬ Bad t := hgood [a] t (by simp) (exec_cons_eq_some.mpr ⟨t, ha, rfl⟩)
      refine ⟨hstep.mpr htg, fun t' ha' => ?_⟩
      rw [ha, Option.some.injEq] at ha'
      subst ha'
      refine (ih hIt htg ht).mpr fun pre u hpre hu => ?_
      exact hgood (a :: pre) u (List.cons_prefix_cons.mpr ⟨rfl, hpre⟩) (exec_cons_eq_some.mpr ⟨t, ha, hu⟩)

/-! ### Stretches of a run -/

/-- What holds of the end of a run whose steps all meet `P`, if `P` of a step gives it of the step. -/
theorem exec_along {R : List α → σ → σ → Prop} {P : σ → α → Prop} (hnil : ∀ s, R [] s s)
    (htrans : ∀ a as s t u, R [a] s t → R as t u → R (a :: as) s u) :
    ∀ {as : List α} {s s' : σ}, (∀ a ∈ as, ∀ s s', step s a = some s' → P s a → R [a] s s') →
      Along step P s as → exec step s as = some s' → R as s s' := by
  intro as
  induction as with
  | nil =>
    intro s s' _ _ h
    rw [exec_nil, Option.some.injEq] at h
    exact h ▸ hnil s
  | cons a as ih =>
    intro s s' hP halong h
    obtain ⟨t, ha, ht⟩ := exec_cons_eq_some.mp h
    have hfirst : R [a] s t := hP a List.mem_cons_self s t ha halong.1
    exact htrans a as s t s' hfirst (ih (fun b hb => hP b (List.mem_cons_of_mem _ hb)) (halong.2 t ha) ht)

theorem Along.append_right {P : σ → α → Prop} {as bs : List α} :
    ∀ {s t : σ}, Along step P s (as ++ bs) → exec step s as = some t → Along step P t bs := by
  induction as with
  | nil =>
    intro s t h hexec
    rw [exec_nil, Option.some.injEq] at hexec
    exact hexec ▸ h
  | cons a as ih =>
    intro s t h hexec
    obtain ⟨u, ha, hu⟩ := exec_cons_eq_some.mp hexec
    exact ih (h.2 u ha) hu

/-- **When every stretch is good**: if `P` is exactly the condition for one step to be good, and
stretches of good steps are good, then the runs whose steps all meet `P` are exactly those
with good stretches only. -/
theorem along_iff_stretches {R : List α → σ → σ → Prop} {P : σ → α → Prop} (hnil : ∀ s, R [] s s)
    (htrans : ∀ a as s t u, R [a] s t → R as t u → R (a :: as) s u) :
    ∀ {as : List α} {s s' : σ}, (∀ a ∈ as, ∀ s s', step s a = some s' → (P s a ↔ R [a] s s')) →
      exec step s as = some s' →
      (Along step P s as ↔ ∀ pre mid t u, pre ++ mid <+: as → exec step s pre = some t →
        exec step t mid = some u → R mid t u) := by
  intro as s s' hP h
  constructor
  · intro halong pre mid t u hpre ht hu
    obtain ⟨post, rfl⟩ := hpre
    have hmid : Along step P t mid := halong.append_left.append_right ht
    refine exec_along hnil htrans (fun a ha s s' hs => (hP a ?_ s s' hs).mp) hmid hu
    exact List.mem_append_left _ (List.mem_append_right _ ha)
  · intro hgood
    induction as generalizing s with
    | nil => trivial
    | cons a as ih =>
      obtain ⟨t, ha, ht⟩ := exec_cons_eq_some.mp h
      have hone : exec step s [a] = some t := exec_cons_eq_some.mpr ⟨t, ha, rfl⟩
      have hstep : R [a] s t := hgood [] [a] s t (by simp) rfl hone
      refine ⟨(hP a List.mem_cons_self s t ha).mpr hstep, fun t' ha' => ?_⟩
      rw [ha, Option.some.injEq] at ha'
      subst ha'
      refine ih (fun b hb => hP b (List.mem_cons_of_mem _ hb)) ht fun pre mid u v hpre hu hv => ?_
      exact hgood (a :: pre) mid u v (List.cons_prefix_cons.mpr ⟨rfl, hpre⟩)
        (exec_cons_eq_some.mpr ⟨t, ha, hu⟩) hv

end Hawal.Lib
