import Hawal.Lib.JsonText
import Mathlib.Data.List.Chain

/-!
# Surrogates in strings

A JSON escape is a unit of 16 bits, and a code point above those is written as two of them. What is read back
is the string that was written exactly if it has no surrogates next to each other that make a pair (`Sound`);
what a reader returns never has (`sound_joinPairs`). Parts of such a string are `Sound`, and so is what is put
together of pieces with no surrogates at their ends (`Sealed`).
-/

namespace Hawal.Lib.Python

/-- A high surrogate and a low one. -/
def IsPair (hi lo : ℕ) : Prop := 0xD800 ≤ hi ∧ hi < 0xDC00 ∧ 0xDC00 ≤ lo ∧ lo < 0xE000

instance (hi lo : ℕ) : Decidable (IsPair hi lo) := inferInstanceAs (Decidable (_ ∧ _))

/-- Code points of Unicode, the surrogates included. -/
def Unicode (s : Str) : Prop := ∀ c ∈ s, c < 0x110000

instance (s : Str) : Decidable (Unicode s) := inferInstanceAs (Decidable (∀ c ∈ s, c < 0x110000))

/-- No surrogates next to each other make a pair. -/
def Apart (s : Str) : Prop := s.IsChain fun c d => ¬ IsPair c d

/-- The strings that come back from their escapes. -/
structure Sound (s : Str) : Prop where
  unicode : Unicode s
  apart : Apart s

/-! ### Pairs -/

theorem joinPairs_pair {hi lo : ℕ} (h : IsPair hi lo) (s : Str) :
    joinPairs (hi :: lo :: s) = (0x10000 + (hi - 0xD800) * 0x400 + (lo - 0xDC00)) :: joinPairs s := by
  rw [joinPairs]
  exact if_pos h

/-- A code point that makes no pair with the next is kept. -/
theorem joinPairs_cons {c : ℕ} {s : Str} (h : ∀ d ∈ s.head?, ¬ IsPair c d) :
    joinPairs (c :: s) = c :: joinPairs s := by
  cases s with
  | nil => rfl
  | cons d s =>
    rw [joinPairs]
    exact if_neg (h d rfl)

/-- What is first after joining was first before, or is no surrogate. -/
theorem head?_joinPairs {s : Str} {d : ℕ} (h : d ∈ (joinPairs s).head?) : d ∈ s.head? ∨ 0x10000 ≤ d := by
  fun_cases joinPairs s with
  | case1 hi lo rest hpair =>
    rw [joinPairs_pair hpair, List.head?_cons, Option.mem_some_iff] at h
    exact .inr (by omega)
  | case2 hi lo rest hpair =>
    rw [joinPairs, if_neg hpair] at h
    exact .inl h
  | case3 s hs =>
    unfold joinPairs at h
    split at h
    · exact (hs _ _ _ rfl).elim
    · exact .inl h

theorem apart_joinPairs (s : Str) : Apart (joinPairs s) := by
  fun_induction joinPairs s with
  | case1 hi lo rest hpair ih =>
    refine List.isChain_cons.mpr ⟨?_, ih⟩
    rintro d - ⟨-, hhi, -, -⟩
    omega
  | case2 hi lo rest hpair ih =>
    refine List.isChain_cons.mpr ⟨fun d hd hpair' => ?_, ih⟩
    rcases head?_joinPairs hd with hd | hd
    · cases hd
      exact hpair hpair'
    · obtain ⟨-, -, -, hlo⟩ := hpair'
      omega
  | case3 s hs =>
    cases s with
    | nil => exact .nil
    | cons c s =>
      cases s with
      | nil => exact .singleton c
      | cons d s => exact (hs c d s rfl).elim

theorem length_joinPairs (s : Str) : (joinPairs s).length ≤ s.length := by
  fun_induction joinPairs s with
  | case1 hi lo rest h ih =>
    simp only [List.length_cons]
    omega
  | case2 hi lo rest h ih =>
    simp only [List.length_cons] at ih ⊢
    omega
  | case3 s h => exact le_rfl

theorem unicode_joinPairs {s : Str} (h : Unicode s) : Unicode (joinPairs s) := by
  fun_induction joinPairs s with
  | case1 hi lo rest hpair ih =>
    simp only [Unicode, List.forall_mem_cons] at h ih ⊢
    exact ⟨by omega, ih h.2.2⟩
  | case2 hi lo rest hpair ih =>
    rw [Unicode, List.forall_mem_cons] at h ⊢
    exact ⟨h.1, ih h.2⟩
  | case3 s hs => exact h

/-- What is read comes back when it is written. -/
theorem sound_joinPairs {s : Str} (h : Unicode s) : Sound (joinPairs s) := ⟨unicode_joinPairs h, apart_joinPairs s⟩

/-! ### Units -/

/-- The code point as units of 16 bits. -/
def units (c : ℕ) : Str :=
  if c < 0x10000 then [c] else [0xD800 + (c - 0x10000) / 0x400, 0xDC00 + (c - 0x10000) % 0x400]

theorem units_lt {c : ℕ} (h : c < 0x110000) : ∀ u ∈ units c, u < 0x10000 := by
  unfold units
  split
  · simpa
  · simp only [List.forall_mem_cons, List.not_mem_nil, false_implies, implies_true, and_true]
    omega

/-- The first unit of a code point makes no pair with a code point that the code point itself makes none with. -/
theorem not_isPair_units {c d : ℕ} {s : Str} (hd : d < 0x110000) (h : ¬ IsPair c d) :
    ∀ u ∈ (units d ++ s).head?, ¬ IsPair c u := by
  intro u hu
  unfold units at hu
  split at hu
  · cases hu
    exact h
  · cases hu
    rintro ⟨-, -, hlo, hhi⟩
    rename_i hlarge
    omega

/-- Units make up the string that they are those of. -/
theorem joinPairs_units {s : Str} (h : Sound s) : joinPairs (s.flatMap units) = s := by
  obtain ⟨hunicode, hapart⟩ := h
  induction s with
  | nil => rfl
  | cons c s ih =>
    obtain ⟨hc, hs⟩ := List.forall_mem_cons.mp hunicode
    obtain ⟨hhead, hrest⟩ := List.isChain_cons.mp hapart
    rw [List.flatMap_cons]
    by_cases hsmall : c < 0x10000
    · have hnext : ∀ u ∈ (s.flatMap units).head?, ¬ IsPair c u := by
        cases s with
        | nil => exact fun u hu => nomatch hu
        | cons d s => exact not_isPair_units (hs d List.mem_cons_self) (hhead d rfl)
      rw [units, if_pos hsmall, List.singleton_append, joinPairs_cons hnext, ih hs hrest]
    · have hpair : IsPair (0xD800 + (c - 0x10000) / 0x400) (0xDC00 + (c - 0x10000) % 0x400) := by
        unfold IsPair
        omega
      have hvalue : 0x10000 + (0xD800 + (c - 0x10000) / 0x400 - 0xD800) * 0x400 +
          (0xDC00 + (c - 0x10000) % 0x400 - 0xDC00) = c := by omega
      rw [units, if_neg hsmall, List.cons_append, List.singleton_append, joinPairs_pair hpair, ih hs hrest, hvalue]

/-! ### Pieces of strings -/

theorem Unicode.append {s t : Str} (hs : Unicode s) (ht : Unicode t) : Unicode (s ++ t) :=
  List.forall_mem_append.mpr ⟨hs, ht⟩

theorem unicode_str (s : String) : Unicode (str s) := by
  intro c hc
  obtain ⟨ch, -, rfl⟩ := List.mem_map.mp hc
  rcases ch.valid with h | ⟨-, h⟩
  · exact Nat.lt_trans h (by decide)
  · exact h

/-- Part of a string. -/
theorem Sound.infix {s t : Str} (h : Sound t) (hs : s <:+: t) : Sound s :=
  ⟨fun c hc => h.unicode c (hs.subset hc), List.IsChain.infix h.apart hs⟩

theorem Sound.stripBy {s : Str} (h : Sound s) (p : ℕ → Bool) : Sound (stripBy p s) :=
  h.infix ((List.rdropWhile_prefix p _).isInfix.trans (List.dropWhile_suffix p).isInfix)

theorem Sound.strip {s : Str} (h : Sound s) : Sound (strip s) := h.stripBy isSpace

theorem Sound.before {s : Str} (h : Sound s) (c : ℕ) : Sound (before c s) := h.infix (List.takeWhile_prefix _).isInfix

theorem Sound.after {s t : Str} (h : Sound s) {c : ℕ} (ht : after c s = some t) : Sound t :=
  h.infix (suffix_of_after ht).isInfix

/-- One code point of a string. -/
theorem Sound.singleton {s : Str} (h : Sound s) {c : ℕ} (hc : c ∈ s) : Sound [c] :=
  ⟨List.forall_mem_singleton.mpr (h.unicode c hc), .singleton c⟩

/-- A string with bytes in UTF-8. -/
theorem sound_of_encodable {s : Str} (hs : Unicode s) (h : Encodable s) : Sound s := by
  refine ⟨hs, ?_⟩
  induction s with
  | nil => exact .nil
  | cons c s ih =>
    rw [Unicode, List.forall_mem_cons] at hs
    rw [Encodable, List.forall_mem_cons] at h
    refine List.isChain_cons.mpr ⟨?_, ih hs.2 h.2⟩
    rintro d - ⟨hlo, hhi, -, -⟩
    exact h.1 ⟨hlo, by omega⟩

/-- The code point is no surrogate. -/
def Whole (c : ℕ) : Prop := ¬ (0xD800 ≤ c ∧ c < 0xE000)

/-- A piece that can stand next to any other. -/
structure Sealed (s : Str) : Prop where
  sound : Sound s
  first : ∀ c ∈ s.head?, Whole c
  last : ∀ c ∈ s.getLast?, Whole c

theorem sealed_of_encodable {s : Str} (hs : Unicode s) (h : Encodable s) : Sealed s where
  sound := sound_of_encodable hs h
  first := fun c hc => h c (List.mem_of_mem_head? hc)
  last := fun c hc => h c (List.mem_of_mem_getLast? hc)

theorem sealed_str (s : String) : Sealed (str s) := sealed_of_encodable (unicode_str s) (encodable_str s)

theorem sealed_nil : Sealed [] := sealed_of_encodable (List.forall_mem_nil _) (List.forall_mem_nil _)

/-- A piece before a string. -/
theorem Sealed.sound_append {s t : Str} (hs : Sealed s) (ht : Sound t) : Sound (s ++ t) := by
  refine ⟨hs.sound.unicode.append ht.unicode, hs.sound.apart.append ht.apart ?_⟩
  rintro c hc d - ⟨hlo, hhi, -, -⟩
  exact hs.last c hc ⟨hlo, by omega⟩

theorem Sealed.append {s t : Str} (hs : Sealed s) (ht : Sealed t) : Sealed (s ++ t) := by
  refine ⟨hs.sound_append ht.sound, ?_, ?_⟩
  · intro c hc
    rw [List.head?_append, Option.mem_def, Option.or_eq_some_iff] at hc
    rcases hc with hc | ⟨-, hc⟩
    · exact hs.first c hc
    · exact ht.first c hc
  · intro c hc
    rw [List.getLast?_append, Option.mem_def, Option.or_eq_some_iff] at hc
    rcases hc with hc | ⟨-, hc⟩
    · exact ht.last c hc
    · exact hs.last c hc

/-- A string between two characters that are no surrogates. -/
theorem Sound.sealed_between {c d : ℕ} {s : Str} (h : Sound s) (hc : c < 0xD800) (hd : d < 0xD800) :
    Sealed (c :: (s ++ [d])) := by
  have hwhole : ∀ e, e < 0xD800 → Whole e := fun e he hs => absurd hs.1 (Nat.not_le.mpr he)
  have hsealed : ∀ e, e < 0xD800 → Sealed [e] := fun e he =>
    sealed_of_encodable (List.forall_mem_singleton.mpr (by omega)) (List.forall_mem_singleton.mpr (hwhole e he))
  have hend : Sound (s ++ [d]) := by
    refine ⟨h.unicode.append (hsealed d hd).sound.unicode, h.apart.append (.singleton d) ?_⟩
    rintro a - b hb ⟨-, -, hlo, -⟩
    cases hb
    omega
  refine ⟨(hsealed c hc).sound_append hend, ?_, ?_⟩
  · intro e he
    cases he
    exact hwhole c hc
  · intro e he
    rw [← List.cons_append, List.getLast?_concat] at he
    cases he
    exact hwhole d hd

theorem sealed_text {t : Text} (h : Unicode t.val) : Sealed t.val := sealed_of_encodable h t.property

theorem sealed_decimal (n : ℤ) : Sealed (decimal n) := by
  refine sealed_of_encodable (fun c hc => ?_) (decimal_encodable n)
  rcases mem_decimal hc with rfl | ⟨-, hc⟩ <;> omega

/-- Pieces put together. -/
theorem sealed_flatMap {α : Type} {f : α → Str} {xs : List α} (h : ∀ x ∈ xs, Sealed (f x)) :
    Sealed (xs.flatMap f) := by
  induction xs with
  | nil => exact sealed_nil
  | cons x xs ih =>
    rw [List.forall_mem_cons] at h
    exact h.1.append (ih h.2)

theorem sealed_unlines {ls : List Str} (h : ∀ l ∈ ls, Sealed l) : Sealed (unlines ls) :=
  sealed_flatMap fun l hl => (h l hl).append (sealed_str "\n")

theorem sealed_join {sep : Str} (hsep : Sealed sep) {ls : List Str} (h : ∀ l ∈ ls, Sealed l) :
    Sealed (join sep ls) := by
  induction ls with
  | nil => exact sealed_nil
  | cons l ls ih =>
    rw [List.forall_mem_cons] at h
    cases ls with
    | nil => exact h.1
    | cons m ls => exact (h.1.append hsep).append (ih h.2)

end Hawal.Lib.Python
