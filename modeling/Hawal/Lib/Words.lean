import Hawal.Lib.Decimal

/-!
# Stripping and splitting

What `strip`, and the parts before and after a character, make of a text that is put together from
known parts.
-/

namespace Hawal.Lib.Python

/-! ### Parts -/

theorem before_append {c : ℕ} {s : Str} (h : c ∉ s) (t : Str) : before c (s ++ c :: t) = s := by
  have hs : ∀ x ∈ s, decide (x ≠ c) = true := by
    intro x hx
    exact decide_eq_true fun hxc => h (hxc ▸ hx)
  rw [before, List.takeWhile_append_of_pos hs, List.takeWhile_cons_of_neg (by simp), List.append_nil]

theorem after_append {c : ℕ} {s : Str} (h : c ∉ s) (t : Str) : after c (s ++ c :: t) = some t := by
  have hs : ∀ x ∈ s, decide (x ≠ c) = true := by
    intro x hx
    exact decide_eq_true fun hxc => h (hxc ▸ hx)
  rw [after, List.dropWhile_append_of_pos hs, List.dropWhile_cons_of_neg (by simp)]

theorem after_of_notMem {c : ℕ} {s : Str} (h : c ∉ s) : after c s = none := by
  have hs : s.dropWhile (fun x => decide (x ≠ c)) = [] := by
    refine List.dropWhile_eq_nil_iff.mpr fun x hx => ?_
    exact decide_eq_true fun hxc => h (hxc ▸ hx)
  rw [after, hs]

theorem before_of_notMem {c : ℕ} {s : Str} (h : c ∉ s) : before c s = s := by
  refine List.takeWhile_eq_self_iff.mpr fun x hx => ?_
  exact decide_eq_true fun hxc => h (hxc ▸ hx)

theorem afterLast_of_notMem {c : ℕ} {s : Str} (h : c ∉ s) : afterLast c s = s := by
  rw [afterLast, List.rtakeWhile, List.takeWhile_eq_self_iff.mpr, List.reverse_reverse]
  intro x hx
  exact decide_eq_true fun hxc => h (hxc ▸ List.mem_reverse.mp hx)

/-! ### White space -/

theorem stripBy_append_left {p : ℕ → Bool} {s : Str} (h : ∀ c ∈ s, p c = true) (t : Str) :
    stripBy p (s ++ t) = stripBy p t := by
  rw [stripBy, stripBy, List.dropWhile_append_of_pos h]

theorem rdropWhile_append_right {p : ℕ → Bool} {t : Str} (h : ∀ c ∈ t, p c = true) (s : Str) :
    (s ++ t).rdropWhile p = s.rdropWhile p := by
  have hrev : ∀ c ∈ t.reverse, p c = true := fun c hc => h c (List.mem_reverse.mp hc)
  rw [List.rdropWhile, List.rdropWhile, List.reverse_append, List.dropWhile_append_of_pos hrev]

theorem stripBy_append_right {p : ℕ → Bool} {t : Str} (h : ∀ c ∈ t, p c = true) (s : Str) :
    stripBy p (s ++ t) = stripBy p s := by
  rw [stripBy, stripBy, List.dropWhile_append]
  split
  · rename_i hs
    -- all of it goes
    rw [List.isEmpty_iff.mp hs, List.dropWhile_eq_nil_iff.mpr h]
  · exact rdropWhile_append_right h _

/-- Text that begins and ends with something else keeps what is between. -/
theorem stripBy_between {p : ℕ → Bool} {s t : Str} (hs : s ≠ []) (ht : t ≠ []) (hps : ∀ c ∈ s, p c = false)
    (hpt : ∀ c ∈ t, p c = false) (m : Str) : stripBy p (s ++ m ++ t) = s ++ m ++ t := by
  have hstart : (s ++ m ++ t).dropWhile p = s ++ m ++ t := by
    cases s with
    | nil => exact absurd rfl hs
    | cons c s =>
      rw [List.cons_append, List.cons_append, List.dropWhile_cons_of_neg]
      rw [hps c List.mem_cons_self]
      exact Bool.false_ne_true
  have hend : (s ++ m ++ t).rdropWhile p = s ++ m ++ t := by
    rw [List.rdropWhile, List.reverse_append]
    cases hrev : t.reverse with
    | nil => exact absurd (List.reverse_eq_nil_iff.mp hrev) ht
    | cons c r =>
      have hc : p c = false := hpt c (List.mem_reverse.mp (hrev ▸ List.mem_cons_self))
      rw [List.cons_append, List.dropWhile_cons_of_neg (by rw [hc]; exact Bool.false_ne_true), ← List.cons_append,
        ← hrev, ← List.reverse_append, List.reverse_reverse]
  rw [stripBy, hstart, hend]

theorem stripBy_dropWhile (p : ℕ → Bool) (s : Str) : stripBy p (s.dropWhile p) = stripBy p s := by
  have hspaces : ∀ c ∈ s.takeWhile p, p c = true := fun c hc => List.mem_takeWhile_imp hc
  conv_rhs => rw [← List.takeWhile_append_dropWhile (p := p) (l := s), stripBy_append_left hspaces]

theorem stripBy_rdropWhile (p : ℕ → Bool) (s : Str) : stripBy p (s.rdropWhile p) = stripBy p s := by
  have hspaces : ∀ c ∈ s.rtakeWhile p, p c = true := fun c hc => List.mem_rtakeWhile_imp hc
  have hparts : s.rdropWhile p ++ s.rtakeWhile p = s := by
    rw [List.rdropWhile, List.rtakeWhile, ← List.reverse_append, List.takeWhile_append_dropWhile, List.reverse_reverse]
  conv_rhs => rw [← hparts, stripBy_append_right hspaces]

/-- What stays in the middle keeps the sides apart. -/
theorem stripBy_around {p : ℕ → Bool} {c : ℕ} (hc : p c = false) (s t : Str) :
    stripBy p (s ++ c :: t) = s.dropWhile p ++ c :: t.rdropWhile p := by
  have hstart : (s ++ c :: t).dropWhile p = s.dropWhile p ++ c :: t := by
    rw [List.dropWhile_append]
    split
    · rename_i hs
      rw [List.isEmpty_iff.mp hs, List.dropWhile_cons_of_neg (by simp [hc])]
      rfl
    · rfl
  have hend : ∀ u : Str, (u ++ c :: t).rdropWhile p = u ++ c :: t.rdropWhile p := by
    intro u
    rw [List.rdropWhile, List.rdropWhile, List.reverse_append, List.reverse_cons, List.append_assoc,
      List.dropWhile_append]
    split
    · rename_i ht
      rw [List.isEmpty_iff.mp ht, List.singleton_append, List.dropWhile_cons_of_neg (by simp [hc])]
      simp
    · simp
  rw [stripBy, hstart, hend]

theorem isInfix_strip (s : Str) : strip s <:+: s :=
  (List.rdropWhile_prefix _ _).isInfix.trans (List.dropWhile_suffix _).isInfix

/-! ### Replacing -/

theorem replace_of_not_infix {old : Str} (new : Str) {s : Str} (h : ¬ old <:+: s) : replace old new s = s := by
  rw [replace]
  induction s with
  | nil => rfl
  | cons c s ih =>
    have hhere : ¬ old.isPrefixOf (c :: s) = true := fun hp => h (List.isPrefixOf_iff_prefix.mp hp).isInfix
    have hlater : ¬ old <:+: s := fun hi => h (hi.trans (List.suffix_cons c s).isInfix)
    rw [replaceFrom, if_neg hhere, ih hlater]

theorem replace_self_append {old : Str} (hne : old ≠ []) (new s : Str) :
    replace old new (old ++ s) = new ++ replace old new s := by
  have hskip : ∀ t : Str, replaceFrom old new t.length (t ++ s) = replaceFrom old new 0 s := by
    intro t
    induction t with
    | nil => rfl
    | cons c t ih => exact ih
  have hstart : ∀ c t, old = c :: t →
      replace old new (old ++ s) = new ++ replaceFrom old new (old.length - 1) (t ++ s) := by
    intro c t hcons
    have hprefix : old.isPrefixOf (c :: (t ++ s)) = true :=
      List.isPrefixOf_iff_prefix.mpr (hcons ▸ List.prefix_append (c :: t) s)
    have happend : old ++ s = c :: (t ++ s) := by rw [hcons, List.cons_append]
    rw [replace, happend, replaceFrom, if_pos hprefix]
  obtain ⟨c, t, hcons⟩ := List.exists_cons_of_ne_nil hne
  rw [hstart c t hcons, hcons, List.length_cons, Nat.add_sub_cancel, ← hcons, hskip]
  rfl

/-! ### Words -/

/-- `s.split()`. -/
def splitWords (s : Str) : List Str := (s.splitOnP isSpace).filter fun w => !w.isEmpty

/-- A word. -/
def IsWord (w : Str) : Prop := w ≠ [] ∧ ∀ c ∈ w, isSpace c = false

instance (w : Str) : Decidable (IsWord w) := inferInstanceAs (Decidable (_ ∧ _))

theorem splitWords_cons {w : Str} (hw : IsWord w) {c : ℕ} (hc : isSpace c = true) (s : Str) :
    splitWords (w ++ c :: s) = w :: splitWords s := by
  rw [splitWords, List.splitOnP_append_cons_of_forall_mem hw.2 c hc, List.filter_cons_of_pos (by simp [hw.1])]
  rfl

theorem isSpace_of_isDigit {c : ℕ} (h : IsDigit c) : isSpace c = false := by
  have hdigits : ∀ d < 10, isSpace (48 + d) = false := by decide
  have hc := hdigits (c - 48) (by have := h.2; omega)
  rwa [Nat.add_sub_cancel' h.1] at hc

/-- A character is not among digits. -/
theorem notMem_of_isDigit {c : ℕ} (hc : ¬ IsDigit c) {s : Str} (h : ∀ d ∈ s, IsDigit d) : c ∉ s := fun hmem =>
  hc (h c hmem)

/-- Nor among white space. -/
theorem notMem_of_isSpace {c : ℕ} (hc : isSpace c = false) {s : Str} (h : ∀ d ∈ s, isSpace d = true) : c ∉ s := by
  intro hmem
  rw [h c hmem] at hc
  cases hc

end Hawal.Lib.Python
