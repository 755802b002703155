import Hawal.Lib.JsonText

/-!
# What a dump leaves behind

A dict whose values `loads` has returned is written by `dump` either as a whole, and then its tokens
make the dict again (`parseRun_dict`), or only up to a piece that raises, and then what there is of it cannot be read
(`loads_dump_of_raises`). Which of the two it is can be told from the dict: all of its strings have
bytes in UTF-8, and its lists and dicts do not stand too deep in one another (`dump_iff`). What
`loads` returns has been read in this sense itself (`loaded_of_loads`).
-/

namespace Hawal.Lib.Python

/-! ### The run of a dump -/

/-- A dump raises unless every piece can be written. -/
theorem dump_snd {nesting : ℕ} {ps : List Part} : (dump nesting ps).2 = true ↔ ∀ p ∈ ps, p.Ok nesting := by
  induction ps with
  | nil => exact iff_of_true rfl fun p hp => by cases hp
  | cons p ps ih =>
    rw [dump, List.forall_mem_cons]
    split
    · rename_i hp
      exact ih.trans (and_iff_right hp).symm
    · rename_i hp
      exact iff_of_false Bool.false_ne_true fun h => hp h.1

theorem dump_fst {nesting : ℕ} {ps : List Part} (h : ∀ p ∈ ps, p.Ok nesting) : (dump nesting ps).1 = textOf ps := by
  induction ps with
  | nil => rfl
  | cons p ps ih =>
    rw [List.forall_mem_cons] at h
    rw [dump, if_pos h.1]
    show p.text ++ (dump nesting ps).1 = p.text ++ textOf ps
    rw [ih h.2]

/-- What is written before a piece raises: the pieces before it. -/
theorem dump_cut {nesting : ℕ} {ps : List Part} (h : (dump nesting ps).2 = false) :
    ∃ qs p rest, ps = qs ++ p :: rest ∧ (∀ q ∈ qs, q.Ok nesting) ∧ (dump nesting ps).1 = textOf qs := by
  induction ps with
  | nil => cases h
  | cons p ps ih =>
    rw [dump] at h ⊢
    split at h
    · rename_i hp
      obtain ⟨qs, p', rest, hps, hqs, htext⟩ := ih h
      refine ⟨p :: qs, p', rest, congrArg (p :: ·) hps, List.forall_mem_cons.mpr ⟨hp, hqs⟩, ?_⟩
      rw [if_pos hp]
      show p.text ++ (dump nesting ps).1 = p.text ++ textOf qs
      rw [htext]
    · rename_i hp
      refine ⟨[], p, ps, rfl, List.forall_mem_nil _, ?_⟩
      rw [if_neg hp]
      rfl

/-- What is written has bytes in UTF-8. -/
theorem encodable_dump (nesting : ℕ) (ps : List Part) : Encodable (dump nesting ps).1 := by
  induction ps with
  | nil => exact List.forall_mem_nil _
  | cons p ps ih =>
    rw [dump]
    split
    · rename_i hp
      exact hp.2.append ih
    · exact List.forall_mem_nil _

/-! ### Reading the whole, and less -/

variable {R : FloatReader}

/-- The pieces of a dict are read, whether or not its keys are different. -/
theorem readsAll_dict_parts {fs : Fields} (h : ∀ f ∈ fs, Loaded R f.2) : ReadsAll R (Json.parts 0 (.dict fs)) := by
  cases fs with
  | nil => exact readsAll_parts _ 0 (.dict [] List.nodup_nil h)
  | cons f fs => exact readsAll_dict (readsAll_fieldParts _ _ _ (closed_newline _ _) h)

/-- The tokens of a whole dict. -/
theorem parseRun_dict {fs : Fields} (h : ∀ f ∈ fs, Loaded R f.2) :
    parseRun (.value false []) (tokensOf (Json.parts 0 (.dict fs))) = some (.done (.dict (ofPairs fs))) := by
  cases fs with
  | nil => rfl
  | cons f fs =>
    rw [List.forall_mem_cons] at h
    exact parseRun_fields f.2 fs 0 (parseRun_tokens f.2 1 h.1) (parseRun_fieldParts fs 1 h.2) f.1 false []

/-- The last piece of a dict says something. -/
theorem exists_last_part (fs : Fields) :
    ∃ init last t, Json.parts 0 (.dict fs) = init ++ [last] ∧ t ∈ last.tokens := by
  cases fs with
  | nil => exact ⟨[], _, .lbrace, rfl, List.mem_cons_self⟩
  | cons f fs =>
    let fields := fieldParts 1 ⟨newline 1, [], 1⟩ (f :: fs)
    refine ⟨⟨str "\x7b", [.lbrace], 1⟩ :: fields ++ [⟨newline 0, [], 1⟩], ⟨str "\x7d", [.rbrace], 1⟩, .rbrace, ?_, ?_⟩
    · rw [Json.parts, List.append_assoc]
      rfl
    · exact List.mem_cons_self

/-- What is left out of a dict at its end says something. -/
theorem tokensOf_ne_nil {fs : Fields} {qs rest : List Part} {p : Part}
    (h : Json.parts 0 (.dict fs) = qs ++ p :: rest) : tokensOf (p :: rest) ≠ [] := by
  obtain ⟨init, last, t, hparts, ht⟩ := exists_last_part fs
  have hlast : last ∈ p :: rest := by
    have hmem := congrArg List.getLast? (hparts.symm.trans h)
    rw [List.getLast?_concat, List.getLast?_append_cons] at hmem
    exact List.mem_of_getLast? hmem.symm
  exact List.ne_nil_of_mem (List.mem_flatMap.mpr ⟨last, hlast, ht⟩)

/-- Nothing comes after a whole value. -/
theorem parseRun_done (v : Json) {ts : List Token} (h : ts ≠ []) : parseRun (.done v) ts = none := by
  cases ts with
  | nil => exact absurd rfl h
  | cons t ts => cases t <;> rfl

/-- Less than the text of a dict is not read. -/
theorem loads_truncated {fs : Fields} (h : ∀ f ∈ fs, Loaded R f.2) {qs rest : List Part} {p : Part}
    (hparts : Json.parts 0 (.dict fs) = qs ++ p :: rest) (htext : ∀ q ∈ qs, Encodable q.text) :
    loads R (textOf qs) = none := by
  have hreads : ∀ q ∈ qs, q.Reads R := by
    intro q hq
    exact readsAll_dict_parts h q (hparts ▸ List.mem_append_left _ hq) (htext q hq)
  have hwhole := parseRun_dict h
  rw [hparts, tokensOf_append, parseRun_append] at hwhole
  rw [loads, lex_textOf hreads, Option.bind_some, parse]
  split
  · rename_i v hdone
    rw [hdone, Option.bind_some, parseRun_done v (tokensOf_ne_nil hparts)] at hwhole
    cases hwhole
  · rfl

/-- Of a dump that raises nothing is read back. -/
theorem loads_dump_of_raises {fs : Fields} (h : ∀ f ∈ fs, Loaded R f.2) {nesting : ℕ}
    (hraises : (dump nesting (Json.parts 0 (.dict fs))).2 = false) :
    loads R (dump nesting (Json.parts 0 (.dict fs))).1 = none := by
  obtain ⟨qs, p, rest, hparts, hqs, htext⟩ := dump_cut hraises
  rw [htext, loads_truncated h hparts fun q hq => (hqs q hq).2]

/-! ### Which dicts can be written -/

mutual

/-- The strings of the value have bytes in UTF-8, and no more than `room` lists and dicts stand in
one another. -/
def Json.writable (room : ℕ) : Json → Bool
  | .str s => decide (Encodable s)
  | .list xs => decide (0 < room) && itemsWritable (room - 1) xs
  | .dict fs => decide (0 < room) && fieldsWritable (room - 1) fs
  | _ => true

/-- Each item is writable. -/
def itemsWritable (room : ℕ) : List Json → Bool
  | [] => true
  | x :: xs => x.writable room && itemsWritable room xs

/-- Each key and each value is writable. -/
def fieldsWritable (room : ℕ) : Fields → Bool
  | [] => true
  | (k, v) :: fs => decide (Encodable k) && v.writable room && fieldsWritable room fs

end

theorem fieldsWritable_iff {room : ℕ} {fs : Fields} :
    fieldsWritable room fs = true ↔ ∀ f ∈ fs, Encodable f.1 ∧ f.2.writable room = true := by
  induction fs with
  | nil => exact iff_of_true rfl (List.forall_mem_nil _)
  | cons f fs ih =>
    rw [fieldsWritable, Bool.and_eq_true, Bool.and_eq_true, decide_eq_true_iff, ih, List.forall_mem_cons]

/-- All of these pieces can be written. -/
def AllOk (nesting : ℕ) (ps : List Part) : Prop := ∀ p ∈ ps, p.Ok nesting

@[simp] theorem allOk_nil (nesting : ℕ) : AllOk nesting [] ↔ True := iff_true_intro (List.forall_mem_nil _)

@[simp] theorem allOk_cons {nesting : ℕ} {p : Part} {ps : List Part} :
    AllOk nesting (p :: ps) ↔ p.Ok nesting ∧ AllOk nesting ps := List.forall_mem_cons

@[simp] theorem allOk_append {nesting : ℕ} {ps qs : List Part} :
    AllOk nesting (ps ++ qs) ↔ AllOk nesting ps ∧ AllOk nesting qs := List.forall_mem_append

theorem encodable_newline (level : ℕ) : Encodable (newline level) := by
  intro c hc
  rcases List.mem_cons.mp hc with rfl | hc
  · omega
  · have := List.eq_of_mem_replicate hc
    omega

theorem encodable_wordText {v : Json} {w : Str} (hv : Loaded R v) (hw : wordText v = some w) : Encodable w :=
  encodable_of_isWordChar (wordFor_wordText hv hw).chars

theorem ok_and {nesting : ℕ} {p : Part} (hp : p.Ok nesting) (t : Str) (v : Json) :
    (p.and t v).Ok nesting ↔ Encodable t := by
  show p.level ≤ nesting ∧ Encodable (p.text ++ t) ↔ _
  rw [encodable_append]
  exact ⟨fun h => h.2.2, fun h => ⟨hp.1, hp.2, h⟩⟩

/-- A string, a list or a dict, as far as its pieces tell. -/
def PartsOk (nesting level : ℕ) (v : Json) : Prop :=
  match v with
  | .str s => Encodable s
  | v => AllOk nesting (Json.parts level v)

theorem partsOk_list {nesting level : ℕ} {xs : List Json} :
    PartsOk nesting level (.list xs) ↔ AllOk nesting (Json.parts level (.list xs)) := Iff.rfl

theorem partsOk_dict {nesting level : ℕ} {fs : Fields} :
    PartsOk nesting level (.dict fs) ↔ AllOk nesting (Json.parts level (.dict fs)) := Iff.rfl

theorem allOk_itemHead {nesting level : ℕ} {sep : Part} (hsep : sep.Ok nesting) {x : Json} (hx : Loaded R x) :
    AllOk nesting (itemHead level sep x) ↔ PartsOk nesting level x := by
  have hword : ∀ w, wordText x = some w → AllOk nesting [sep.and w x] := fun w hw =>
    List.forall_mem_singleton.mpr ((ok_and hsep w x).mpr (encodable_wordText hx hw))
  cases x with
  | null => exact iff_of_true (hword _ rfl) (List.forall_mem_nil _)
  | bool b => exact iff_of_true (hword _ rfl) (List.forall_mem_nil _)
  | int n => exact iff_of_true (hword _ rfl) (List.forall_mem_nil _)
  | float x => exact iff_of_true (hword _ rfl) (List.forall_mem_nil _)
  | str s => exact List.forall_mem_singleton.trans ((ok_and hsep _ _).trans encodable_quoted)
  | list xs => exact allOk_cons.trans (and_iff_right hsep)
  | dict fs => exact allOk_cons.trans (and_iff_right hsep)

theorem allOk_fieldHead {nesting level : ℕ} (hlevel : level ≤ nesting) {v : Json} (hv : Loaded R v) :
    AllOk nesting (fieldHead level v) ↔ PartsOk nesting level v := by
  have hcolon : (⟨str ": ", [.colon], level⟩ : Part).Ok nesting := ⟨hlevel, encodable_str _⟩
  have hword : ∀ w, wordText v = some w → AllOk nesting [(⟨str ": ", [.colon], level⟩ : Part).and w v] := fun w hw =>
    List.forall_mem_singleton.mpr ((ok_and hcolon w v).mpr (encodable_wordText hv hw))
  cases v with
  | null => exact iff_of_true (hword _ rfl) (List.forall_mem_nil _)
  | bool b => exact iff_of_true (hword _ rfl) (List.forall_mem_nil _)
  | int n => exact iff_of_true (hword _ rfl) (List.forall_mem_nil _)
  | float x => exact iff_of_true (hword _ rfl) (List.forall_mem_nil _)
  | str s =>
    have hquoted : (⟨quoted s, [.scalar (.str s)], level⟩ : Part).Ok nesting ↔ Encodable s :=
      (and_iff_right hlevel).trans encodable_quoted
    exact allOk_cons.trans ((and_iff_right hcolon).trans (List.forall_mem_singleton.trans hquoted))
  | list xs => exact allOk_cons.trans (and_iff_right hcolon)
  | dict fs => exact allOk_cons.trans (and_iff_right hcolon)

/-- What is inside one more list or dict, where there is room for it. -/
theorem and_room_iff {nesting level : ℕ} {a b : Prop} (h : level + 1 ≤ nesting → (a ↔ b)) :
    (a ∧ level + 1 ≤ nesting) ↔ (0 < nesting - level ∧ b) := by
  constructor
  · rintro ⟨ha, hlevel⟩
    exact ⟨by omega, (h hlevel).mp ha⟩
  · rintro ⟨hroom, hb⟩
    have hlevel : level + 1 ≤ nesting := by omega
    exact ⟨(h hlevel).mpr hb, hlevel⟩

mutual

/-- The pieces of a value can be written exactly if it is writable. -/
theorem partsOk_iff : ∀ (v : Json) (nesting level : ℕ), Loaded R v →
    (PartsOk nesting level v ↔ v.writable (nesting - level) = true)
  | .null, _, _, _ => iff_of_true (List.forall_mem_nil _) rfl
  | .bool _, _, _, _ => iff_of_true (List.forall_mem_nil _) rfl
  | .int _, _, _, _ => iff_of_true (List.forall_mem_nil _) rfl
  | .float _, _, _, _ => iff_of_true (List.forall_mem_nil _) rfl
  | .str s, _, _, _ => (decide_eq_true_iff (p := Encodable s)).symm
  | .list [], nesting, level, _ => by
    have hpart : (⟨str "[]", [.lbracket, .rbracket], level + 1⟩ : Part).Ok nesting ↔ level + 1 ≤ nesting :=
      and_iff_left (encodable_str _)
    rw [partsOk_list, Json.parts, allOk_cons, hpart, Json.writable, itemsWritable, Bool.and_true, decide_eq_true_iff,
      allOk_nil, and_true]
    omega
  | .list (x :: xs), nesting, level, h => by
    have hitems : ∀ y ∈ x :: xs, Loaded R y := by
      cases h with
      | list _ h => exact h
    have hsep : level + 1 ≤ nesting →
        (⟨str "[" ++ newline (level + 1), [.lbracket], level + 1⟩ : Part).Ok nesting := fun hlevel =>
      ⟨hlevel, (encodable_str _).append (encodable_newline _)⟩
    have hclose : AllOk nesting [⟨newline level, [], level + 1⟩, ⟨str "]", [.rbracket], level + 1⟩] ↔
        level + 1 ≤ nesting := by
      simp [Part.Ok, encodable_newline, encodable_str]
    have hall := fun hlevel => itemsOk_iff (x :: xs) nesting (level + 1) _ hlevel (hsep hlevel) hitems
    rw [partsOk_list, Json.parts, allOk_append, hclose, Json.writable, Bool.and_eq_true, decide_eq_true_iff,
      Nat.sub_sub]
    exact and_room_iff hall
  | .dict [], nesting, level, _ => by
    have hpart : (⟨str "\x7b\x7d", [.lbrace, .rbrace], level + 1⟩ : Part).Ok nesting ↔ level + 1 ≤ nesting :=
      and_iff_left (encodable_str _)
    rw [partsOk_dict, Json.parts, allOk_cons, hpart, Json.writable, fieldsWritable, Bool.and_true, decide_eq_true_iff,
      allOk_nil, and_true]
    omega
  | .dict (f :: fs), nesting, level, h => by
    have hfields : ∀ g ∈ f :: fs, Loaded R g.2 := by
      cases h with
      | dict _ _ h => exact h
    have hsep : level + 1 ≤ nesting → (⟨newline (level + 1), [], level + 1⟩ : Part).Ok nesting := fun hlevel =>
      ⟨hlevel, encodable_newline _⟩
    have hbounds : ∀ ps, AllOk nesting (⟨str "\x7b", [.lbrace], level + 1⟩ :: ps ++
        [⟨newline level, [], level + 1⟩, ⟨str "\x7d", [.rbrace], level + 1⟩]) ↔
          AllOk nesting ps ∧ level + 1 ≤ nesting := by
      intro ps
      simp [Part.Ok, encodable_newline, encodable_str, and_comm]
    have hall := fun hlevel => fieldsOk_iff (f :: fs) nesting (level + 1) _ hlevel (hsep hlevel) hfields
    rw [partsOk_dict, Json.parts, hbounds, Json.writable, Bool.and_eq_true, decide_eq_true_iff, Nat.sub_sub]
    exact and_room_iff hall

/-- Those of items. -/
theorem itemsOk_iff : ∀ (xs : List Json) (nesting level : ℕ) (sep : Part), level ≤ nesting → sep.Ok nesting →
    (∀ x ∈ xs, Loaded R x) → (AllOk nesting (itemParts level sep xs) ↔ itemsWritable (nesting - level) xs = true)
  | [], _, _, _, _, _, _ => iff_of_true (List.forall_mem_nil _) rfl
  | x :: xs, nesting, level, sep, hlevel, hsep, h => by
    rw [List.forall_mem_cons] at h
    have hcomma : (⟨str "," ++ newline level, [.comma], level⟩ : Part).Ok nesting :=
      ⟨hlevel, (encodable_str _).append (encodable_newline _)⟩
    rw [itemParts_cons, allOk_append, allOk_itemHead hsep h.1, partsOk_iff x nesting level h.1,
      itemsOk_iff xs nesting level _ hlevel hcomma h.2, itemsWritable, Bool.and_eq_true]

/-- Those of fields. -/
theorem fieldsOk_iff : ∀ (fs : Fields) (nesting level : ℕ) (sep : Part), level ≤ nesting → sep.Ok nesting →
    (∀ f ∈ fs, Loaded R f.2) → (AllOk nesting (fieldParts level sep fs) ↔ fieldsWritable (nesting - level) fs = true)
  | [], _, _, _, _, _, _ => iff_of_true (List.forall_mem_nil _) rfl
  | (k, v) :: fs, nesting, level, sep, hlevel, hsep, h => by
    rw [List.forall_mem_cons] at h
    have hcomma : (⟨str "," ++ newline level, [.comma], level⟩ : Part).Ok nesting :=
      ⟨hlevel, (encodable_str _).append (encodable_newline _)⟩
    have hkey : (⟨quoted k, [.scalar (.str k)], level⟩ : Part).Ok nesting ↔ Encodable k :=
      (and_iff_right hlevel).trans encodable_quoted
    rw [fieldParts_cons, allOk_cons, allOk_cons, allOk_append, hkey, allOk_fieldHead hlevel h.1,
      partsOk_iff v nesting level h.1, fieldsOk_iff fs nesting level _ hlevel hcomma h.2, fieldsWritable,
      Bool.and_eq_true, Bool.and_eq_true, decide_eq_true_iff, and_iff_right hsep, and_assoc]

end

/-- A dump of a dict does not raise exactly if the dict is writable. -/
theorem dump_iff {fs : Fields} (h : ∀ f ∈ fs, Loaded R f.2) {nesting : ℕ} :
    (dump (nesting + 1) (Json.parts 0 (.dict fs))).2 = true ↔ fieldsWritable nesting fs = true := by
  rw [dump_snd]
  cases fs with
  | nil => exact iff_of_true (by simp [Json.parts, Part.Ok, encodable_str]) rfl
  | cons f fs =>
    have hlevel : 1 ≤ nesting + 1 := by omega
    have hsep : (⟨newline 1, [], 1⟩ : Part).Ok (nesting + 1) := ⟨hlevel, encodable_newline _⟩
    have hfields := fieldsOk_iff (f :: fs) (nesting + 1) 1 ⟨newline 1, [], 1⟩ hlevel hsep h
    rw [Nat.add_sub_cancel] at hfields
    rw [← hfields]
    show AllOk _ _ ↔ _
    rw [Json.parts]
    simp [Part.Ok, encodable_newline, encodable_str]

/-! ### What is read has been read -/

theorem isDigit_of_isDecimal {c : ℕ} (h : isDecimal c = true) : IsDigit c := by
  rw [isDecimal, Bool.and_eq_true, decide_eq_true_eq, decide_eq_true_eq] at h
  exact h

theorem digits_of_afterInt {w : Str} (h : afterInt w = some []) : w ≠ [] ∧ ∀ c ∈ w, IsDigit c := by
  cases w with
  | nil => cases h
  | cons c rest =>
    refine ⟨List.cons_ne_nil _ _, ?_⟩
    rw [afterInt] at h
    split at h
    · rename_i hzero
      cases h
      simp [IsDigit, hzero]
    · split at h
      · rename_i hc
        have hrest : ∀ d ∈ rest, isDecimal d = true := List.dropWhile_eq_nil_iff.mp (Option.some.inj h)
        rw [List.forall_mem_cons]
        exact ⟨isDigit_of_isDecimal hc, fun d hd => isDigit_of_isDecimal (hrest d hd)⟩
      · cases h

/-- A whole number that is read has no more digits than are taken. -/
theorem length_natDigits_of_isIntWord {w : Str} {n : ℤ} (hw : isIntWord w = true) (hn : parseInt w = some n) :
    (natDigits n.natAbs).length ≤ maxStrDigits := by
  have hint : afterInt (unsigned w) = some [] := beq_iff_eq.mp hw
  have hdigits := digits_of_afterInt hint
  have hread : ∀ ds : Str, ds ≠ [] → (∀ c ∈ ds, IsDigit c) → ∀ m : ℤ, m.natAbs = spelled ds →
      (if maxStrDigits < ds.length then none else some m) = some n → (natDigits n.natAbs).length ≤ maxStrDigits := by
    intro ds hne hds m hm h
    split at h
    · cases h
    · rename_i hlen
      cases h
      rw [hm]
      exact Nat.le_trans (length_natDigits_spelled hne hds) (Nat.not_lt.mp hlen)
  unfold unsigned at hdigits
  split at hdigits
  · rename_i ds
    refine hread ds hdigits.1 hdigits.2 (-(spelled ds : ℤ)) ?_ (parseInt_neg hdigits.1 hdigits.2 ▸ hn)
    rw [Int.natAbs_neg, Int.natAbs_natCast]
  · exact hread w hdigits.1 hdigits.2 (spelled w) (Int.natAbs_natCast _) (parseInt_digits hdigits.1 hdigits.2 ▸ hn)

theorem loaded_of_readWord {w : Str} {v : Json} (h : readWord R w = some v) : Loaded R v := by
  unfold readWord at h
  split at h
  · cases h
    exact .null
  split at h
  · cases h
    exact .bool true
  split at h
  · cases h
    exact .bool false
  split at h
  · rename_i hw
    obtain ⟨n, hn, rfl⟩ := Option.map_eq_some_iff.mp h
    exact .int n (length_natDigits_of_isIntWord hw hn)
  split at h
  · rename_i hw
    cases h
    exact .float w hw
  · cases h

/-- The values among these tokens have been read. -/
def TokensLoaded (R : FloatReader) (ts : List Token) : Prop := ∀ v, Token.scalar v ∈ ts → Loaded R v

theorem TokensLoaded.append {ts us : List Token} (ht : TokensLoaded R ts) (hu : TokensLoaded R us) :
    TokensLoaded R (ts ++ us) := by
  intro v hv
  rcases List.mem_append.mp hv with hv | hv
  · exact ht v hv
  · exact hu v hv

theorem tokensLoaded_nil : TokensLoaded R [] := fun v hv => by cases hv

theorem tokensLoaded_singleton {v : Json} (h : Loaded R v) : TokensLoaded R [.scalar v] := by
  intro v' hv'
  cases List.mem_singleton.mp hv'
  exact h

theorem tokensLoaded_mark {c : ℕ} {ts : List Token} (h : mark c = some ts) : TokensLoaded R ts := by
  intro v hv
  unfold mark at h
  split at h
  · cases h
    cases hv
  all_goals
    repeat' split at h
    all_goals
      cases h <;> simp at hv

theorem tokensLoaded_lexIdle {c : ℕ} {r : Lex × List Token} (h : lexIdle c = some r) : TokensLoaded R r.2 := by
  unfold lexIdle at h
  split at h
  · cases h
    exact tokensLoaded_nil
  split at h
  · cases h
    exact tokensLoaded_nil
  · obtain ⟨ts, hts, rfl⟩ := Option.map_eq_some_iff.mp h
    exact tokensLoaded_mark hts

theorem tokensLoaded_lexStep {st : Lex} {c : ℕ} {r : Lex × List Token} (h : lexStep R st c = some r) :
    TokensLoaded R r.2 := by
  cases st with
  | idle => exact tokensLoaded_lexIdle h
  | word w =>
    rw [lexStep] at h
    split at h
    · cases h
      exact tokensLoaded_nil
    · obtain ⟨v, hv, hrest⟩ := Option.bind_eq_some_iff.mp h
      obtain ⟨r', hr', rfl⟩ := Option.map_eq_some_iff.mp hrest
      exact (tokensLoaded_singleton (loaded_of_readWord hv)).append (tokensLoaded_lexIdle hr')
  | string s =>
    rw [lexStep] at h
    split at h
    · cases h
      exact tokensLoaded_singleton (.str _)
    split at h
    · cases h
      exact tokensLoaded_nil
    split at h
    · cases h
    · cases h
      exact tokensLoaded_nil
  | escape s =>
    rw [lexStep] at h
    split at h
    · cases h
      exact tokensLoaded_nil
    · obtain ⟨d, -, rfl⟩ := Option.map_eq_some_iff.mp h
      exact tokensLoaded_nil
  | hex s k n =>
    obtain ⟨d, -, rfl⟩ := Option.map_eq_some_iff.mp h
    cases k with
    | zero => exact tokensLoaded_nil
    | succ k => exact tokensLoaded_nil

theorem tokensLoaded_lexRun {s : Str} {st : Lex} {r : Lex × List Token} (h : lexRun R st s = some r) :
    TokensLoaded R r.2 := by
  induction s generalizing st r with
  | nil =>
    cases h
    exact tokensLoaded_nil
  | cons c s ih =>
    obtain ⟨r₁, hstep, hrest⟩ := Option.bind_eq_some_iff.mp h
    obtain ⟨r₂, hrun, rfl⟩ := Option.map_eq_some_iff.mp hrest
    exact (tokensLoaded_lexStep hstep).append (ih hrun)

theorem tokensLoaded_lex {s : Str} {ts : List Token} (h : lex R s = some ts) : TokensLoaded R ts := by
  obtain ⟨r, hrun, hrest⟩ := Option.bind_eq_some_iff.mp h
  obtain ⟨us, hend, rfl⟩ := Option.map_eq_some_iff.mp hrest
  refine (tokensLoaded_lexRun hrun).append ?_
  cases hst : r.1 with
  | idle =>
    rw [hst] at hend
    cases hend
    exact tokensLoaded_nil
  | word w =>
    rw [hst] at hend
    obtain ⟨v, hv, rfl⟩ := Option.map_eq_some_iff.mp hend
    exact tokensLoaded_singleton (loaded_of_readWord hv)
  | string s => rw [hst] at hend; cases hend
  | escape s => rw [hst] at hend; cases hend
  | hex s k n => rw [hst] at hend; cases hend

/-- The fields of a dict that has been read, as far as it has been. -/
def FieldsLoaded (R : FloatReader) (fields : Fields) : Prop :=
  (fields.map Prod.fst).Nodup ∧ ∀ f ∈ fields, Loaded R f.2

/-- The list or dict has been read so far. -/
def Frame.Loaded (R : FloatReader) : Frame → Prop
  | .list xs => ∀ x ∈ xs, Python.Loaded R x
  | .dict fields _ => FieldsLoaded R fields

/-- What there is so far has been read. -/
def Expect.Loaded (R : FloatReader) : Expect → Prop
  | .value _ stack => ∀ f ∈ stack, f.Loaded R
  | .key _ fields stack => FieldsLoaded R fields ∧ ∀ f ∈ stack, f.Loaded R
  | .colon fields _ stack => FieldsLoaded R fields ∧ ∀ f ∈ stack, f.Loaded R
  | .item xs stack => (∀ x ∈ xs, Python.Loaded R x) ∧ ∀ f ∈ stack, f.Loaded R
  | .field fields stack => FieldsLoaded R fields ∧ ∀ f ∈ stack, f.Loaded R
  | .done v => Python.Loaded R v

theorem FieldsLoaded.setField {d : Fields} (h : FieldsLoaded R d) (k : Str) {v : Json} (hv : Loaded R v) :
    FieldsLoaded R (setField d k v) := by
  have hnodup : (Dict.keys id d).Nodup := h.1
  exact ⟨Dict.nodup_keys_set hnodup k v, Dict.forall_set h.2 k hv⟩

theorem FieldsLoaded.dict {d : Fields} (h : FieldsLoaded R d) : Loaded R (.dict d) := .dict d h.1 h.2

theorem fieldsLoaded_nil : FieldsLoaded R [] := ⟨List.nodup_nil, List.forall_mem_nil _⟩

theorem loaded_complete {stack : List Frame} (hstack : ∀ f ∈ stack, f.Loaded R) {v : Json} (hv : Loaded R v) :
    (complete stack v).Loaded R := by
  cases stack with
  | nil => exact hv
  | cons f stack =>
    rw [List.forall_mem_cons] at hstack
    cases f with
    | list xs => exact ⟨List.forall_mem_append.mpr ⟨hstack.1, List.forall_mem_singleton.mpr hv⟩, hstack.2⟩
    | dict fields key => exact ⟨hstack.1.setField key hv, hstack.2⟩

theorem loaded_parseStep {st st' : Expect} (hst : st.Loaded R) {t : Token} (ht : TokensLoaded R [t])
    (h : parseStep st t = some st') : st'.Loaded R := by
  unfold parseStep at h
  split at h
  · cases h
    exact loaded_complete hst (ht _ (List.mem_singleton.mpr rfl))
  · cases h
    exact List.forall_mem_cons.mpr ⟨List.forall_mem_nil _, hst⟩
  · cases h
    exact ⟨fieldsLoaded_nil, hst⟩
  · cases h
    exact loaded_complete (List.forall_mem_cons.mp hst).2 (.list [] (List.forall_mem_nil _))
  · cases h
    exact hst
  · cases h
    exact loaded_complete hst.2 hst.1.dict
  · cases h
    exact List.forall_mem_cons.mpr hst
  · cases h
    exact List.forall_mem_cons.mpr hst
  · cases h
    exact loaded_complete hst.2 (.list _ hst.1)
  · cases h
    exact hst
  · cases h
    exact loaded_complete hst.2 hst.1.dict
  · cases h

theorem loaded_parseRun {ts : List Token} {st st' : Expect} (hst : st.Loaded R) (ht : TokensLoaded R ts)
    (h : parseRun st ts = some st') : st'.Loaded R := by
  induction ts generalizing st with
  | nil =>
    cases h
    exact hst
  | cons t ts ih =>
    obtain ⟨st₁, hstep, hrun⟩ := Option.bind_eq_some_iff.mp h
    have hfirst : TokensLoaded R [t] := fun v hv => ht v (List.mem_cons.mpr (.inl (List.mem_singleton.mp hv)))
    exact ih (loaded_parseStep hst hfirst hstep) (fun v hv => ht v (List.mem_cons_of_mem _ hv)) hrun

/-- What `loads` returns has been read. -/
theorem loaded_of_loads {s : Str} {v : Json} (h : loads R s = some v) : Loaded R v := by
  obtain ⟨ts, hlex, hparse⟩ := Option.bind_eq_some_iff.mp h
  have hts : TokensLoaded R ts := tokensLoaded_lex hlex
  have hstart : Expect.Loaded R (.value false []) := List.forall_mem_nil _
  unfold parse at hparse
  split at hparse
  · rename_i w hrun
    cases hparse
    exact loaded_parseRun hstart hts hrun
  · cases hparse

end Hawal.Lib.Python
