import Hawal.Lib.JsonDump
import Hawal.Lib.Surrogates

/-!
# The strings of a JSON text

Text that was put between quotation marks is read as it is when there is no quotation mark, no backslash
and no control character in it. Otherwise every string that is read within it is shorter (`lexRun_pasted`),
however it goes on: a string does not go over the end of a line.

What `loads` returns has no strings but those that are read (`strings_of_parseRun`), so of several texts
that are pasted the longest that is not plain is not among them (`plain_of_longer`).
-/

namespace Hawal.Lib.Python

variable {R : FloatReader}

/-! ### Reading within quotation marks -/

/-- No quotation mark, no backslash and no control character. -/
def Plain (s : Str) : Prop := ∀ c ∈ s, 32 ≤ c ∧ c ≠ 34 ∧ c ≠ 92

instance (s : Str) : Decidable (Plain s) := inferInstanceAs (Decidable (∀ c ∈ s, _))

/-- How much the reader has of a string. -/
def Lex.held : Lex → ℕ
  | .string s => s.length
  | .escape s => s.length
  | .hex s _ _ => s.length
  | _ => 0

/-- A value that is a string is one of these. -/
def StringIn (S : Str → Prop) (v : Json) : Prop := ∀ s, v = .str s → S s

/-- The token is no dict, and one of these when it is a string. -/
def Token.In (S : Str → Prop) (t : Token) : Prop := ∀ v, t = .scalar v → StringIn S v ∧ ∀ fields, v ≠ .dict fields

theorem Token.In.mono {S S' : Str → Prop} (hS : ∀ s, S s → S' s) {t : Token} (h : t.In S) : t.In S' := fun v hv =>
  ⟨fun s hs => hS s ((h v hv).1 s hs), (h v hv).2⟩

theorem Token.in_str {S : Str → Prop} {s : Str} (h : S s) : (Token.scalar (.str s)).In S := by
  intro v hv
  cases hv
  refine ⟨fun t ht => ?_, fun fields hfields => nomatch hfields⟩
  cases ht
  exact h

/-- The strings among the tokens are not as long as this. -/
def Shorter (n : ℕ) (ts : List Token) : Prop := ∀ t ∈ ts, t.In fun s => s.length < n

theorem Shorter.append {n : ℕ} {ts ts' : List Token} (h : Shorter n ts) (h' : Shorter n ts') :
    Shorter n (ts ++ ts') := List.forall_mem_append.mpr ⟨h, h'⟩

theorem Shorter.mono {m n : ℕ} {ts : List Token} (h : Shorter m ts) (hmn : m ≤ n) : Shorter n ts := fun t ht =>
  (h t ht).mono fun _ hs => hs.trans_le hmn

theorem shorter_nil (n : ℕ) : Shorter n [] := List.forall_mem_nil _

/-- A word is neither a string nor a dict. -/
theorem in_readWord {S : Str → Prop} {w : Str} {v : Json} (h : readWord R w = some v) : (Token.scalar v).In S := by
  intro v' hv'
  cases hv'
  unfold readWord at h
  split_ifs at h
  · cases h
    exact ⟨nofun, nofun⟩
  · cases h
    exact ⟨nofun, nofun⟩
  · cases h
    exact ⟨nofun, nofun⟩
  · obtain ⟨n, -, h⟩ := Option.map_eq_some_iff.mp h
    cases h
    exact ⟨nofun, nofun⟩
  · cases h
    exact ⟨nofun, nofun⟩

theorem in_lexEnd {S : Str → Prop} {st : Lex} {ts : List Token} (h : lexEnd R st = some ts) : ∀ t ∈ ts, t.In S := by
  cases st with
  | idle =>
    cases h
    exact List.forall_mem_nil _
  | word w =>
    obtain ⟨v, hv, h⟩ := Option.map_eq_some_iff.mp h
    cases h
    exact List.forall_mem_singleton.mpr (in_readWord hv)
  | string _ => cases h
  | escape _ => cases h
  | hex _ _ _ => cases h

theorem in_mark {S : Str → Prop} {c : ℕ} {ts : List Token} (h : mark c = some ts) : ∀ t ∈ ts, t.In S := by
  unfold mark at h
  split_ifs at h
  · cases h
    exact List.forall_mem_nil _
  all_goals
    cases h
    exact List.forall_mem_singleton.mpr nofun

theorem lexIdle_held {c : ℕ} {st : Lex} {ts : List Token} (h : lexIdle c = some (st, ts)) (n : ℕ) :
    st.held = 0 ∧ Shorter n ts := by
  unfold lexIdle at h
  split_ifs at h
  · cases h
    exact ⟨rfl, shorter_nil n⟩
  · cases h
    exact ⟨rfl, shorter_nil n⟩
  · obtain ⟨m, hm, h⟩ := Option.map_eq_some_iff.mp h
    cases h
    exact ⟨rfl, in_mark hm⟩

/-- One character more is held, at most, and a string that is read is what was held. -/
theorem lexStep_held {st st' : Lex} {c : ℕ} {ts : List Token} (h : lexStep R st c = some (st', ts)) :
    st'.held ≤ st.held + 1 ∧ Shorter (st.held + 1) ts := by
  cases st with
  | idle =>
    obtain ⟨hheld, hts⟩ := lexIdle_held h 1
    exact ⟨hheld.le.trans (Nat.zero_le _), hts⟩
  | word w =>
    rw [lexStep] at h
    split_ifs at h
    · cases h
      exact ⟨Nat.zero_le _, shorter_nil _⟩
    · obtain ⟨v, hv, h⟩ := Option.bind_eq_some_iff.mp h
      obtain ⟨r, hr, h⟩ := Option.map_eq_some_iff.mp h
      cases h
      obtain ⟨hheld, hts⟩ := lexIdle_held hr 1
      exact ⟨hheld.le.trans (Nat.zero_le _), List.forall_mem_cons.mpr ⟨in_readWord hv, hts⟩⟩
  | string s =>
    rw [lexStep] at h
    split_ifs at h
    · cases h
      exact ⟨Nat.zero_le _, List.forall_mem_singleton.mpr (Token.in_str (Nat.lt_succ_of_le (length_joinPairs s)))⟩
    · cases h
      exact ⟨Nat.le_succ _, shorter_nil _⟩
    · cases h
      exact ⟨(List.length_append ..).le, shorter_nil _⟩
  | escape s =>
    rw [lexStep] at h
    split_ifs at h
    · cases h
      exact ⟨Nat.le_succ _, shorter_nil _⟩
    · obtain ⟨d, -, h⟩ := Option.map_eq_some_iff.mp h
      cases h
      exact ⟨(List.length_append ..).le, shorter_nil _⟩
  | hex s k n =>
    obtain ⟨v, -, h⟩ := Option.map_eq_some_iff.mp h
    cases k with
    | zero =>
      cases h
      exact ⟨(List.length_append ..).le, shorter_nil _⟩
    | succ k =>
      cases h
      exact ⟨Nat.le_succ _, shorter_nil _⟩

theorem lexRun_held {s : Str} : ∀ {st st' : Lex} {ts : List Token}, lexRun R st s = some (st', ts) →
    st'.held ≤ st.held + s.length ∧ Shorter (st.held + s.length) ts := by
  induction s with
  | nil =>
    intro st st' ts h
    cases h
    exact ⟨le_rfl, shorter_nil _⟩
  | cons c s ih =>
    intro st st' ts h
    rw [lexRun, Option.bind_eq_some_iff] at h
    obtain ⟨r, hstep, h⟩ := h
    obtain ⟨r', hrun, h⟩ := Option.map_eq_some_iff.mp h
    cases h
    obtain ⟨hone, hts⟩ := lexStep_held hstep
    obtain ⟨hmore, hts'⟩ := ih hrun
    rw [List.length_cons]
    exact ⟨by omega, (hts.mono (by omega)).append (hts'.mono (by omega))⟩

/-- Text after a quotation mark: the reader has all of it, or less. -/
theorem lexRun_string {v : Str} : ∀ {a : Str} {st : Lex} {ts : List Token}, lexRun R (.string a) v = some (st, ts) →
    (Plain v ∧ st = .string (a ++ v) ∧ ts = []) ∨
      (¬ Plain v ∧ st.held < a.length + v.length ∧ Shorter (a.length + v.length) ts) := by
  induction v with
  | nil =>
    intro a st ts h
    cases h
    exact .inl ⟨List.forall_mem_nil _, by rw [List.append_nil], rfl⟩
  | cons c v ih =>
    intro a st ts h
    rw [lexRun, Option.bind_eq_some_iff] at h
    obtain ⟨r, hstep, h⟩ := h
    obtain ⟨r', hrun, h⟩ := Option.map_eq_some_iff.mp h
    cases h
    rw [List.length_cons]
    have hplain : Plain (c :: v) ↔ (32 ≤ c ∧ c ≠ 34 ∧ c ≠ 92) ∧ Plain v := List.forall_mem_cons
    obtain ⟨hone, hts⟩ := lexStep_held hstep
    rw [lexStep] at hstep
    split_ifs at hstep with hquote hslash hcontrol
    · -- the string ends
      cases hstep
      obtain ⟨hmore, hts'⟩ := lexRun_held hrun
      refine .inr ⟨fun hp => (hplain.mp hp).1.2.1 hquote, ?_, (hts.mono ?_).append (hts'.mono ?_)⟩
      · exact hmore.trans_lt (by show 0 + v.length < _; omega)
      · show a.length + 1 ≤ _
        omega
      · show 0 + v.length ≤ _
        omega
    · -- an escape begins
      cases hstep
      obtain ⟨hmore, hts'⟩ := lexRun_held hrun
      refine .inr ⟨fun hp => (hplain.mp hp).1.2.2 hslash, ?_, hts'.mono ?_⟩
      · exact hmore.trans_lt (by show a.length + v.length < _; omega)
      · show a.length + v.length ≤ _
        omega
    · cases hstep
      rcases ih hrun with ⟨hv, hst, hts'⟩ | ⟨hv, hheld, hts'⟩
      · refine .inl ⟨hplain.mpr ⟨⟨Nat.not_lt.mp hcontrol, hquote, hslash⟩, hv⟩, ?_, ?_⟩
        · rw [hst, List.append_assoc]
          rfl
        · rw [hts']
          rfl
      · rw [List.length_append, List.length_singleton] at hheld hts'
        refine .inr ⟨fun hp => hv (hplain.mp hp).2, by omega, ?_⟩
        exact (shorter_nil _).append (hts'.mono (by omega))

/-- A string does not go over the end of a line. -/
theorem lexRun_string_newline {u : Str} (hu : ∀ c ∈ u, c ≠ 34 ∧ c ≠ 92) (a more : Str) :
    lexRun R (.string a) (u ++ 10 :: more) = none := by
  induction u generalizing a with
  | nil => rfl
  | cons c u ih =>
    rw [List.forall_mem_cons] at hu
    rw [List.cons_append, lexRun, lexStep, if_neg hu.1.1, if_neg hu.1.2]
    split_ifs
    · rfl
    · rw [Option.bind_some, ih hu.2]
      rfl

/-- A quotation mark, with none to come on the line, ends a string. -/
theorem string_of_lexStep_quote {u : Str} (hu : ∀ c ∈ u, c ≠ 34 ∧ c ≠ 92) {more : Str} {st st' : Lex} {ts : List Token}
    {r : Lex × List Token} (hstep : lexStep R st 34 = some (st', ts))
    (hrun : lexRun R st' (u ++ 10 :: more) = some r) :
    ∃ s, st = .string s ∧ st' = .idle ∧ ts = [.scalar (.str (joinPairs s))] := by
  have hopen : ∀ a, st' ≠ .string a := by
    rintro a rfl
    rw [lexRun_string_newline hu] at hrun
    cases hrun
  cases st with
  | idle =>
    cases hstep
    exact absurd rfl (hopen [])
  | word w =>
    obtain ⟨v, -, hstep⟩ := Option.bind_eq_some_iff.mp hstep
    cases hstep
    exact absurd rfl (hopen [])
  | string s =>
    cases hstep
    exact ⟨s, rfl, rfl, rfl⟩
  | escape s =>
    cases hstep
    exact absurd rfl (hopen _)
  | hex s k n => cases hstep

/-- **Text that was pasted between quotation marks**: when it is plain it is one string, and otherwise the
strings in it are shorter. -/
theorem lexRun_pasted {v u more : Str} (hu : ∀ c ∈ u, c ≠ 34 ∧ c ≠ 92) {st : Lex} {ts : List Token}
    (h : lexRun R (.string []) (v ++ 34 :: (u ++ 10 :: more)) = some (st, ts)) :
    ∃ ts₁ ts₂, ts = ts₁ ++ ts₂ ∧ lexRun R .idle (u ++ 10 :: more) = some (st, ts₂) ∧
      ((Plain v ∧ ts₁ = [.scalar (.str (joinPairs v))]) ∨ (¬ Plain v ∧ Shorter v.length ts₁)) := by
  rw [lexRun_append, Option.bind_eq_some_iff] at h
  obtain ⟨⟨st₁, ts₁⟩, hv, h⟩ := h
  obtain ⟨⟨st', ts'⟩, hrest, h⟩ := Option.map_eq_some_iff.mp h
  rw [lexRun, Option.bind_eq_some_iff] at hrest
  obtain ⟨⟨st₂, ts₂⟩, hstep, hrest⟩ := hrest
  obtain ⟨⟨st₃, ts₃⟩, hrun, hrest⟩ := Option.map_eq_some_iff.mp hrest
  cases hrest
  cases h
  obtain ⟨s, rfl, rfl, rfl⟩ := string_of_lexStep_quote hu hstep hrun
  refine ⟨ts₁ ++ [.scalar (.str (joinPairs s))], ts₃, by rw [List.append_assoc], hrun, ?_⟩
  rcases lexRun_string hv with ⟨hplain, hst, rfl⟩ | ⟨hplain, hheld, hts⟩
  · cases hst
    exact .inl ⟨hplain, rfl⟩
  · rw [List.length_nil, Nat.zero_add] at hheld hts
    have hlast : (Token.scalar (.str (joinPairs s))).In fun t => t.length < v.length :=
      Token.in_str ((length_joinPairs s).trans_lt hheld)
    exact .inr ⟨hplain, hts.append (List.forall_mem_singleton.mpr hlast)⟩

/-! ### What is returned -/

section Strings

variable (S : Str → Prop)

/-- The values that are strings are among these. -/
def ValuesIn (fields : Fields) : Prop := ∀ f ∈ fields, StringIn S f.2

/-- So are those of a dict that is open. -/
def Frame.In : Frame → Prop
  | .list _ => True
  | .dict fields _ => ValuesIn S fields

/-- And those of what is read so far. -/
def Expect.In : Expect → Prop
  | .value _ stack => ∀ f ∈ stack, f.In S
  | .key _ fields stack => ValuesIn S fields ∧ ∀ f ∈ stack, f.In S
  | .colon fields _ stack => ValuesIn S fields ∧ ∀ f ∈ stack, f.In S
  | .item _ stack => ∀ f ∈ stack, f.In S
  | .field fields stack => ValuesIn S fields ∧ ∀ f ∈ stack, f.In S
  | .done v => ∀ fields, v = .dict fields → ValuesIn S fields

variable {S}

theorem in_complete {stack : List Frame} (hstack : ∀ f ∈ stack, f.In S) {v : Json} (hv : StringIn S v)
    (hdict : ∀ fields, v = .dict fields → ValuesIn S fields) : (complete stack v).In S := by
  cases stack with
  | nil => exact hdict
  | cons f stack =>
    rw [List.forall_mem_cons] at hstack
    cases f with
    | list xs => exact hstack.2
    | dict fields key => exact ⟨Dict.forall_set hstack.1 key hv, hstack.2⟩

theorem in_complete_dict {stack : List Frame} (hstack : ∀ f ∈ stack, f.In S) {fields : Fields}
    (h : ValuesIn S fields) : (complete stack (.dict fields)).In S := by
  refine in_complete hstack nofun fun fields' hfields => ?_
  cases hfields
  exact h

theorem Expect.In.step {st st' : Expect} {t : Token} (hst : st.In S) (ht : t.In S) (h : parseStep st t = some st') :
    st'.In S := by
  unfold parseStep at h
  split at h
  · cases h
    exact in_complete hst (ht _ rfl).1 fun fields hfields => absurd hfields ((ht _ rfl).2 fields)
  · cases h
    exact List.forall_mem_cons.mpr ⟨trivial, hst⟩
  · cases h
    exact ⟨List.forall_mem_nil _, hst⟩
  · cases h
    exact in_complete (List.forall_mem_cons.mp hst).2 nofun nofun
  · cases h
    exact hst
  · cases h
    exact in_complete_dict hst.2 hst.1
  · cases h
    exact List.forall_mem_cons.mpr hst
  · cases h
    exact List.forall_mem_cons.mpr ⟨trivial, hst⟩
  · cases h
    exact in_complete hst nofun nofun
  · cases h
    exact hst
  · cases h
    exact in_complete_dict hst.2 hst.1
  · cases h

/-- **No string is returned that was not read.** -/
theorem Expect.In.run {ts : List Token} : ∀ {st st' : Expect}, st.In S → (∀ t ∈ ts, t.In S) →
    parseRun st ts = some st' → st'.In S := by
  induction ts with
  | nil =>
    intro st st' hst _ h
    cases h
    exact hst
  | cons t ts ih =>
    intro st st' hst hts h
    rw [List.forall_mem_cons] at hts
    obtain ⟨st₁, hstep, hrun⟩ := Option.bind_eq_some_iff.mp h
    exact ih (hst.step hts.1 hstep) hts.2 hrun

theorem valuesIn_of_parse {ts : List Token} (hts : ∀ t ∈ ts, t.In S) {fields : Fields}
    (h : parse ts = some (.dict fields)) : ValuesIn S fields := by
  unfold parse at h
  split at h
  · rename_i v hrun
    cases h
    have hstart : (Expect.value false []).In S := List.forall_mem_nil _
    exact hstart.run hts hrun fields rfl
  · cases h

end Strings

/-- Of texts that are all plain or shorter than one of them that is not, all are plain: the longest of those
that are not would be shorter than another. -/
theorem plain_of_longer {vs : List Str} (h : ∀ v ∈ vs, Plain v ∨ ∃ w ∈ vs, ¬ Plain w ∧ v.length < w.length) :
    ∀ v ∈ vs, Plain v := by
  intro v hv
  by_contra hplain
  have hlong : ∀ k, ∃ w ∈ vs, ¬ Plain w ∧ k ≤ w.length := by
    intro k
    induction k with
    | zero => exact ⟨v, hv, hplain, Nat.zero_le _⟩
    | succ k ih =>
      obtain ⟨w, hw, hwplain, hk⟩ := ih
      obtain ⟨u, hu, huplain, hlt⟩ := (h w hw).resolve_left hwplain
      exact ⟨u, hu, huplain, Nat.succ_le_of_lt (hk.trans_lt hlt)⟩
  obtain ⟨w, hw, -, hk⟩ := hlong (vs.flatten.length + 1)
  have hle := (List.sublist_flatten_of_mem hw).length_le
  exact absurd (Nat.lt_of_succ_le hk) (Nat.not_lt.mpr hle)

/-! ### A text with values pasted in -/

/-- The text goes on to another line, without a quotation mark or a backslash before. -/
def GoesOn (s : Str) : Prop := ∃ u more, s = u ++ 10 :: more ∧ ∀ c ∈ u, c ≠ 34 ∧ c ≠ 92

/-- Values, each after a text that opens a quotation mark for it, and a last text. -/
def pasted : List (Str × Str) → Str → Str
  | [], last => last
  | f :: fs, last => f.1 ++ (f.2 ++ 34 :: pasted fs last)

/-- The text opens a quotation mark, after these tokens. -/
def Opens (R : FloatReader) (s : Str) (ts : List Token) : Prop := lexRun R .idle s = some (.string [], ts)

theorem lexRun_plain {v : Str} (h : Plain v) (a : Str) : lexRun R (.string a) v = some (.string (a ++ v), []) := by
  induction v generalizing a with
  | nil =>
    rw [List.append_nil]
    rfl
  | cons c v ih =>
    rw [Plain, List.forall_mem_cons] at h
    obtain ⟨⟨hcontrol, hquote, hslash⟩, hv⟩ := h
    rw [lexRun, lexStep, if_neg hquote, if_neg hslash, if_neg (Nat.not_lt.mpr hcontrol), Option.bind_some, ih hv,
      List.append_assoc]
    rfl

/-- A value that is plain, and what follows. -/
theorem Opens.lexRun {front v more : Str} {ts : List Token} (hfront : Opens R front ts) (hplain : Plain v)
    (hv : Encodable v) :
    lexRun R .idle (front ++ (v ++ 34 :: more)) =
      (lexRun R .idle more).map fun r => (r.1, ts ++ .scalar (.str v) :: r.2) := by
  have hquote : Python.lexRun R (.string v) (34 :: more) =
      (Python.lexRun R .idle more).map fun r => (r.1, .scalar (.str v) :: r.2) := by
    rw [Python.lexRun, lexStep, if_pos rfl, Option.bind_some, joinPairs_of_encodable hv]
    rfl
  rw [lexRun_append, hfront, Option.bind_some, lexRun_append, lexRun_plain hplain, Option.bind_some, List.nil_append,
    hquote]
  cases Python.lexRun R .idle more <;> rfl

/-- What is read of the text: plain strings, and strings that are shorter than a value that is not plain. -/
theorem in_pasted {S : Str → Prop} (hplain : ∀ s, Plain s → S s) {last : Str} (hlast : GoesOn last)
    (hlastTokens : ∀ st ts, lexRun R .idle last = some (st, ts) → ∀ t ∈ ts, t.In S) :
    ∀ {fs : List (Str × Str)}, (∀ f ∈ fs, GoesOn f.1 ∧ ∃ ts, Opens R f.1 ts ∧ ∀ t ∈ ts, t.In S) →
      (∀ f ∈ fs, Encodable f.2 ∧ (¬ Plain f.2 → ∀ s, s.length < f.2.length → S s)) →
        ∀ {st : Lex} {ts : List Token}, lexRun R .idle (pasted fs last) = some (st, ts) → ∀ t ∈ ts, t.In S := by
  intro fs
  induction fs with
  | nil => exact fun _ _ _ _ h => hlastTokens _ _ h
  | cons f fs ih =>
    intro hfronts hvalues st ts h
    rw [List.forall_mem_cons] at hfronts hvalues
    obtain ⟨⟨-, ts₀, hopens, hts₀⟩, hfronts⟩ := hfronts
    obtain ⟨⟨hencodable, hshort⟩, hvalues⟩ := hvalues
    -- what follows the value goes on to another line
    obtain ⟨u, more, hrest, hu⟩ : GoesOn (pasted fs last) := by
      cases fs with
      | nil => exact hlast
      | cons g fs =>
        obtain ⟨u, more, hg, hu⟩ := (hfronts g List.mem_cons_self).1
        refine ⟨u, more ++ (g.2 ++ 34 :: pasted fs last), ?_, hu⟩
        rw [pasted, hg, List.append_assoc, List.cons_append]
    rw [pasted, lexRun_append, hopens, Option.bind_some] at h
    obtain ⟨⟨st', ts'⟩, hrun, h⟩ := Option.map_eq_some_iff.mp h
    cases h
    rw [hrest] at hrun
    obtain ⟨ts₁, ts₂, rfl, hmore, hts₁⟩ := lexRun_pasted hu hrun
    rw [← hrest] at hmore
    refine List.forall_mem_append.mpr ⟨hts₀, List.forall_mem_append.mpr ⟨?_, ih hfronts hvalues hmore⟩⟩
    rcases hts₁ with ⟨hv, rfl⟩ | ⟨hv, hts₁⟩
    · rw [joinPairs_of_encodable hencodable]
      exact List.forall_mem_singleton.mpr (Token.in_str (hplain _ hv))
    · exact fun t ht => (hts₁ t ht).mono (hshort hv)

/-- **Values that come back are plain**: when a text with values pasted in is read as a dict in which each of
them is a value, they are all plain. -/
theorem plain_of_loads {fs : List (Str × Str)} {last : Str} (hgoesOn : GoesOn last)
    (hlastTokens : ∀ st ts, lexRun R .idle last = some (st, ts) → ∀ S, ∀ t ∈ ts, t.In S)
    (hfronts : ∀ f ∈ fs, GoesOn f.1 ∧ ∃ ts, Opens R f.1 ts ∧ ∀ t ∈ ts, t.In Plain)
    (hencodable : ∀ f ∈ fs, Encodable f.2) {fields : Fields} (h : loads R (pasted fs last) = some (.dict fields))
    (hback : ∀ f ∈ fs, ∃ k, (k, Json.str f.2) ∈ fields) : ∀ f ∈ fs, Plain f.2 := by
  let S : Str → Prop := fun s => Plain s ∨ ∃ w ∈ fs.map Prod.snd, ¬ Plain w ∧ s.length < w.length
  obtain ⟨ts, hlex, hparse⟩ := Option.bind_eq_some_iff.mp h
  obtain ⟨⟨st, ts₁⟩, hrun, hend⟩ := Option.bind_eq_some_iff.mp hlex
  obtain ⟨ts₂, hlast, rfl⟩ := Option.map_eq_some_iff.mp hend
  have hts₁ : ∀ t ∈ ts₁, t.In S := by
    refine in_pasted (fun s hs => .inl hs) hgoesOn (fun st ts hst => hlastTokens st ts hst S) (fun f hf => ?_)
      (fun f hf => ⟨hencodable f hf, fun hplain s hs => .inr ⟨f.2, List.mem_map_of_mem hf, hplain, hs⟩⟩) hrun
    obtain ⟨hgoes, ts, hopens, hts⟩ := hfronts f hf
    exact ⟨hgoes, ts, hopens, fun t ht => (hts t ht).mono fun s hs => .inl hs⟩
  have hvalues := valuesIn_of_parse (List.forall_mem_append.mpr ⟨hts₁, in_lexEnd hlast⟩) hparse
  have hlonger : ∀ v ∈ fs.map Prod.snd, S v := by
    intro v hv
    obtain ⟨f, hf, rfl⟩ := List.mem_map.mp hv
    obtain ⟨k, hk⟩ := hback f hf
    exact hvalues _ hk f.2 rfl
  exact fun f hf => plain_of_longer hlonger f.2 (List.mem_map_of_mem hf)

end Hawal.Lib.Python
