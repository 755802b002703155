import Hawal.Lib.Surrogates

/-!
# UTF-8

The bytes of a text, and the text of bytes, where `bad` stands for bytes that are no character: nothing, with
`errors="ignore"`, or U+FFFD, with `errors="replace"`. As in Python, the bytes of a character that breaks off are
one piece, and the byte that follows them begins anew.

* `decode_append_encode` — what a text is encoded to is read as this text, whatever stands before it.
* `scalar_decode` — no byte makes half a surrogate pair.
* `length_decode_le` — a text has at most as many characters as bytes.
-/

namespace Hawal.Lib.Python

/-- `s.encode("utf-8")`. -/
def encode (s : Str) : List ℕ := s.flatMap utf8

theorem encode_append (s t : Str) : encode (s ++ t) = encode s ++ encode t := List.flatMap_append

/-- The bytes of other characters are none of ASCII. -/
theorem notMem_encode {b : ℕ} (hb : b < 128) {s : Str} (h : b ∉ s) : b ∉ encode s := by
  intro hmem
  obtain ⟨c, hc, hmem⟩ := List.mem_flatMap.mp hmem
  unfold utf8 at hmem
  split_ifs at hmem
  · exact h (List.mem_singleton.mp hmem ▸ hc)
  all_goals
    simp only [List.mem_cons, List.not_mem_nil, or_false] at hmem
    omega

/-- The characters that have an encoding. -/
def Scalar (c : ℕ) : Prop := c < 0x110000 ∧ ¬ (0xD800 ≤ c ∧ c < 0xE000)

instance (c : ℕ) : Decidable (Scalar c) := inferInstanceAs (Decidable (_ ∧ _))

/-- A character of which some bytes were read: their bits, how many bytes are missing after the next one, and where
the next one lies. Whatever comes, it is going to be a character. -/
structure Begun where
  bits : ℕ
  missing : ℕ
  low : ℕ
  high : ℕ
  low_ge : 0x80 ≤ low
  high_le : high ≤ 0xC0
  scalar : ∀ c, (bits * 64 + (low - 0x80)) * 64 ^ missing ≤ c →
    c < (bits * 64 + (high - 0x80)) * 64 ^ missing → Scalar c

/-- The character after one more byte. -/
def Begun.next (p : Begun) (b : ℕ) (hn : p.missing ≠ 0) (hb : p.low ≤ b ∧ b < p.high) : Begun where
  bits := p.bits * 64 + (b - 0x80)
  missing := p.missing - 1
  low := 0x80
  high := 0xC0
  low_ge := Nat.le_refl _
  high_le := Nat.le_refl _
  scalar c hlow hhigh := by
    have hlow_ge := p.low_ge
    have hpow : 64 ^ p.missing = 64 * 64 ^ (p.missing - 1) := by
      rw [← Nat.pow_succ', Nat.succ_eq_add_one, Nat.sub_add_cancel (Nat.pos_of_ne_zero hn)]
    refine p.scalar c ?_ ?_
    · rw [hpow, ← Nat.mul_assoc]
      exact (Nat.mul_le_mul_right _ (by omega)).trans hlow
    · rw [hpow, ← Nat.mul_assoc]
      exact hhigh.trans_le (Nat.mul_le_mul_right _ (by omega))

/-- The first of two bytes. -/
def Begun.two (b : ℕ) (h : 0xC2 ≤ b ∧ b < 0xE0) : Begun where
  bits := b - 0xC0
  missing := 0
  low := 0x80
  high := 0xC0
  low_ge := Nat.le_refl _
  high_le := Nat.le_refl _
  scalar c _ _ := by unfold Scalar; omega

/-- The first of three bytes. What two bytes could say has no other encoding, and half a surrogate pair has none. -/
def Begun.three (b : ℕ) (h : 0xE0 ≤ b ∧ b < 0xF0) : Begun where
  bits := b - 0xE0
  missing := 1
  low := if b = 0xE0 then 0xA0 else 0x80
  high := if b = 0xED then 0xA0 else 0xC0
  low_ge := by split <;> omega
  high_le := by split <;> omega
  scalar c _ _ := by unfold Scalar; split_ifs at * <;> omega

/-- The first of four bytes. -/
def Begun.four (b : ℕ) (h : 0xF0 ≤ b ∧ b < 0xF5) : Begun where
  bits := b - 0xF0
  missing := 2
  low := if b = 0xF0 then 0x90 else 0x80
  high := if b = 0xF4 then 0x90 else 0xC0
  low_ge := by split <;> omega
  high_le := by split <;> omega
  scalar c _ _ := by unfold Scalar; split_ifs at * <;> omega

section Decode

-- what stands for bytes that are no character
variable (bad : Str)

/-- The first byte of a character: what is read at once, and what is begun. -/
def first (b : ℕ) : Str × Option Begun :=
  if b < 0x80 then ([b], none)
  else if h : 0xC2 ≤ b ∧ b < 0xE0 then ([], some (.two b h))
  else if h : 0xE0 ≤ b ∧ b < 0xF0 then ([], some (.three b h))
  else if h : 0xF0 ≤ b ∧ b < 0xF5 then ([], some (.four b h))
  else (bad, none)

/-- One byte. -/
def decodeStep : Option Begun → ℕ → Str × Option Begun
  | none, b => first bad b
  | some p, b =>
    if hb : p.low ≤ b ∧ b < p.high then
      if hn : p.missing = 0 then ([p.bits * 64 + (b - 0x80)], none) else ([], some (p.next b hn hb))
    else (bad ++ (first bad b).1, (first bad b).2)

/-- The end of the bytes, where a character may break off. -/
def finish : Option Begun → Str
  | none => []
  | some _ => bad

/-- The text of bytes after those of `p`. -/
def decodeFrom : Option Begun → List ℕ → Str
  | p, [] => finish bad p
  | p, b :: bs => (decodeStep bad p b).1 ++ decodeFrom (decodeStep bad p b).2 bs

/-- `bs.decode("utf-8", errors)`. -/
def decode (bs : List ℕ) : Str := decodeFrom bad none bs

variable {bad}

/-! ### What is encoded -/

/-- A byte that stands for itself or begins a character, which is none that can follow. -/
theorem decodeStep_of_first (p : Option Begun) {b : ℕ} (hb : ¬ (0x80 ≤ b ∧ b < 0xC0)) :
    decodeStep bad p b = (finish bad p ++ (first bad b).1, (first bad b).2) := by
  cases p with
  | none => rfl
  | some p =>
    have hlow := p.low_ge
    have hhigh := p.high_le
    exact dif_neg fun h => hb ⟨hlow.trans h.1, h.2.trans_le hhigh⟩

theorem decodeFrom_cons_of_first (p : Option Begun) {b : ℕ} (hb : ¬ (0x80 ≤ b ∧ b < 0xC0)) (bs : List ℕ) :
    decodeFrom bad p (b :: bs) = finish bad p ++ decode bad (b :: bs) := by
  rw [decode, decodeFrom, decodeStep_of_first p hb, List.append_assoc, decodeFrom]
  rfl

theorem decodeFrom_last {p : Begun} {b : ℕ} (hn : p.missing = 0) (hb : p.low ≤ b ∧ b < p.high) (bs : List ℕ) :
    decodeFrom bad (some p) (b :: bs) = (p.bits * 64 + (b - 0x80)) :: decode bad bs := by
  simp [decodeFrom, decodeStep, hb, hn, decode]

theorem decodeFrom_next {p : Begun} {b : ℕ} (hn : p.missing ≠ 0) (hb : p.low ≤ b ∧ b < p.high) (bs : List ℕ) :
    decodeFrom bad (some p) (b :: bs) = decodeFrom bad (some (p.next b hn hb)) bs := by
  simp [decodeFrom, decodeStep, hb, hn]

theorem decode_begun {p : Begun} {b : ℕ} (h : first bad b = ([], some p)) (bs : List ℕ) :
    decode bad (b :: bs) = decodeFrom bad (some p) bs := by
  rw [decode, decodeFrom, decodeStep, h, List.nil_append]

theorem decode_two {b b₁ : ℕ} (hb : 0xC2 ≤ b ∧ b < 0xE0) (h₁ : 0x80 ≤ b₁ ∧ b₁ < 0xC0) (bs : List ℕ) :
    decode bad (b :: b₁ :: bs) = ((b - 0xC0) * 64 + (b₁ - 0x80)) :: decode bad bs := by
  have hlead : first bad b = ([], some (.two b hb)) := by
    rw [first, if_neg (by omega), dif_pos hb]
  rw [decode_begun hlead]
  exact decodeFrom_last (p := .two b hb) rfl h₁ bs

theorem decode_three {b b₁ b₂ : ℕ} (hb : 0xE0 ≤ b ∧ b < 0xF0)
    (h₁ : (if b = 0xE0 then 0xA0 else 0x80) ≤ b₁ ∧ b₁ < if b = 0xED then 0xA0 else 0xC0)
    (h₂ : 0x80 ≤ b₂ ∧ b₂ < 0xC0) (bs : List ℕ) :
    decode bad (b :: b₁ :: b₂ :: bs) = (((b - 0xE0) * 64 + (b₁ - 0x80)) * 64 + (b₂ - 0x80)) :: decode bad bs := by
  have hlead : first bad b = ([], some (.three b hb)) := by
    rw [first, if_neg (by omega), dif_neg (by omega), dif_pos hb]
  have hnext : (Begun.three b hb).missing ≠ 0 := Nat.one_ne_zero
  rw [decode_begun hlead, decodeFrom_next hnext h₁]
  exact decodeFrom_last (p := (Begun.three b hb).next b₁ hnext h₁) rfl h₂ bs

theorem decode_four {b b₁ b₂ b₃ : ℕ} (hb : 0xF0 ≤ b ∧ b < 0xF5)
    (h₁ : (if b = 0xF0 then 0x90 else 0x80) ≤ b₁ ∧ b₁ < if b = 0xF4 then 0x90 else 0xC0)
    (h₂ : 0x80 ≤ b₂ ∧ b₂ < 0xC0) (h₃ : 0x80 ≤ b₃ ∧ b₃ < 0xC0) (bs : List ℕ) :
    decode bad (b :: b₁ :: b₂ :: b₃ :: bs) =
      ((((b - 0xF0) * 64 + (b₁ - 0x80)) * 64 + (b₂ - 0x80)) * 64 + (b₃ - 0x80)) :: decode bad bs := by
  have hlead : first bad b = ([], some (.four b hb)) := by
    rw [first, if_neg (by omega), dif_neg (by omega), dif_neg (by omega), dif_pos hb]
  have hnext : (Begun.four b hb).missing ≠ 0 := Nat.succ_ne_zero 1
  have hlast : ((Begun.four b hb).next b₁ hnext h₁).missing ≠ 0 := Nat.one_ne_zero
  rw [decode_begun hlead, decodeFrom_next hnext h₁, decodeFrom_next hlast h₂]
  exact decodeFrom_last (p := ((Begun.four b hb).next b₁ hnext h₁).next b₂ hlast h₂) rfl h₃ bs

/-- The bytes of a character are read as this character. -/
theorem decode_utf8 {c : ℕ} (hc : Scalar c) (bs : List ℕ) : decode bad (utf8 c ++ bs) = c :: decode bad bs := by
  obtain ⟨hmax, hsurrogate⟩ := hc
  unfold utf8
  split_ifs with h1 h2 h3
  · simp [decode, decodeFrom, decodeStep, first, h1]
  · have hvalue : (0xC0 + c / 64 - 0xC0) * 64 + (0x80 + c % 64 - 0x80) = c := by omega
    rw [List.cons_append, List.cons_append, List.nil_append, decode_two (by omega) (by omega), hvalue]
  · have hvalue : ((0xE0 + c / 4096 - 0xE0) * 64 + (0x80 + c / 64 % 64 - 0x80)) * 64 + (0x80 + c % 64 - 0x80) = c := by
      omega
    have hsecond : (if 0xE0 + c / 4096 = 0xE0 then 0xA0 else 0x80) ≤ 0x80 + c / 64 % 64 ∧
        0x80 + c / 64 % 64 < if 0xE0 + c / 4096 = 0xED then 0xA0 else 0xC0 := by
      split_ifs <;> omega
    simp only [List.cons_append, List.nil_append]
    rw [decode_three (by omega) hsecond (by omega), hvalue]
  · have hvalue : (((0xF0 + c / 262144 - 0xF0) * 64 + (0x80 + c / 4096 % 64 - 0x80)) * 64 +
        (0x80 + c / 64 % 64 - 0x80)) * 64 + (0x80 + c % 64 - 0x80) = c := by omega
    have hsecond : (if 0xF0 + c / 262144 = 0xF0 then 0x90 else 0x80) ≤ 0x80 + c / 4096 % 64 ∧
        0x80 + c / 4096 % 64 < if 0xF0 + c / 262144 = 0xF4 then 0x90 else 0xC0 := by
      split_ifs <;> omega
    simp only [List.cons_append, List.nil_append]
    rw [decode_four (by omega) hsecond (by omega) (by omega), hvalue]

/-- **What a text is encoded to is read as this text**, whatever stands before it. -/
theorem decodeFrom_append_encode (p : Option Begun) (bs : List ℕ) {s : Str} (hs : ∀ c ∈ s, Scalar c) :
    decodeFrom bad p (bs ++ encode s) = decodeFrom bad p bs ++ s := by
  have htext : ∀ {s : Str}, (∀ c ∈ s, Scalar c) → decode bad (encode s) = s := by
    intro s hs
    induction s with
    | nil => rfl
    | cons c s ih =>
      rw [List.forall_mem_cons] at hs
      rw [encode, List.flatMap_cons, decode_utf8 hs.1]
      exact congrArg (c :: ·) (ih hs.2)
  induction bs generalizing p with
  | cons b bs ih => rw [List.cons_append, decodeFrom, decodeFrom, ih, List.append_assoc]
  | nil =>
    cases s with
    | nil => exact (List.append_nil _).symm
    | cons c s =>
      have hstart : ∃ b rest, utf8 c = b :: rest ∧ ¬ (0x80 ≤ b ∧ b < 0xC0) := by
        unfold utf8
        split_ifs with h1 h2 h3
        · exact ⟨_, _, rfl, by omega⟩
        · exact ⟨_, _, rfl, by omega⟩
        · exact ⟨_, _, rfl, by omega⟩
        · exact ⟨_, _, rfl, by omega⟩
      obtain ⟨b, rest, hb, hfirst⟩ := hstart
      have hread := htext hs
      rw [encode, List.flatMap_cons, hb, List.cons_append] at hread ⊢
      rw [List.nil_append, decodeFrom_cons_of_first p hfirst, hread]
      rfl

theorem decode_append_encode (bs : List ℕ) {s : Str} (hs : ∀ c ∈ s, Scalar c) :
    decode bad (bs ++ encode s) = decode bad bs ++ s := decodeFrom_append_encode none bs hs

theorem decode_encode {s : Str} (hs : ∀ c ∈ s, Scalar c) : decode bad (encode s) = s := decode_append_encode [] hs

/-! ### What is decoded -/

theorem scalar_first (hbad : ∀ c ∈ bad, Scalar c) (b : ℕ) : ∀ c ∈ (first bad b).1, Scalar c := by
  unfold first
  split_ifs with h1
  · rw [List.forall_mem_singleton]
    unfold Scalar
    omega
  · exact List.forall_mem_nil _
  · exact List.forall_mem_nil _
  · exact List.forall_mem_nil _
  · exact hbad

theorem scalar_decodeStep (hbad : ∀ c ∈ bad, Scalar c) (p : Option Begun) (b : ℕ) :
    ∀ c ∈ (decodeStep bad p b).1, Scalar c := by
  cases p with
  | none => exact scalar_first hbad b
  | some p =>
    rw [decodeStep]
    split_ifs with hb hn
    · rw [List.forall_mem_singleton]
      refine p.scalar _ ?_ ?_
      · rw [hn, Nat.pow_zero, Nat.mul_one]
        omega
      · rw [hn, Nat.pow_zero, Nat.mul_one]
        have hlow := p.low_ge
        omega
    · exact List.forall_mem_nil _
    · exact List.forall_mem_append.mpr ⟨hbad, scalar_first hbad b⟩

/-- No byte makes half a surrogate pair. -/
theorem scalar_decode (hbad : ∀ c ∈ bad, Scalar c) (bs : List ℕ) : ∀ c ∈ decode bad bs, Scalar c := by
  have hread : ∀ (bs : List ℕ) (p : Option Begun), ∀ c ∈ decodeFrom bad p bs, Scalar c := by
    intro bs
    induction bs with
    | nil =>
      intro p
      cases p with
      | none => exact List.forall_mem_nil _
      | some p => exact hbad
    | cons b bs ih => exact fun p => List.forall_mem_append.mpr ⟨scalar_decodeStep hbad p b, ih _⟩
  exact hread bs none

theorem encodable_decode (hbad : ∀ c ∈ bad, Scalar c) (bs : List ℕ) : Encodable (decode bad bs) := fun c hc =>
  (scalar_decode hbad bs c hc).2

theorem unicode_decode (hbad : ∀ c ∈ bad, Scalar c) (bs : List ℕ) : Unicode (decode bad bs) := fun c hc =>
  (scalar_decode hbad bs c hc).1

/-- How many characters the bytes may still become that were read and are not decided. -/
def owed : Option Begun → ℕ
  | none => 0
  | some _ => 1

theorem length_first (hbad : bad.length ≤ 1) (b : ℕ) : (first bad b).1.length + owed (first bad b).2 ≤ 1 := by
  unfold first
  split_ifs <;> simp [owed, hbad]

theorem length_decodeStep (hbad : bad.length ≤ 1) (p : Option Begun) (b : ℕ) :
    (decodeStep bad p b).1.length + owed (decodeStep bad p b).2 ≤ owed p + 1 := by
  have hfirst := length_first hbad b
  cases p with
  | none => exact hfirst.trans (Nat.le_add_left 1 _)
  | some p =>
    rw [decodeStep]
    split_ifs
    · simp [owed]
    · simp [owed]
    · show (bad ++ (first bad b).1).length + owed (first bad b).2 ≤ 1 + 1
      rw [List.length_append]
      omega

/-- A text has at most as many characters as bytes. -/
theorem length_decode_le (hbad : bad.length ≤ 1) (bs : List ℕ) : (decode bad bs).length ≤ bs.length := by
  have hread : ∀ (bs : List ℕ) (p : Option Begun), (decodeFrom bad p bs).length ≤ owed p + bs.length := by
    intro bs
    induction bs with
    | nil =>
      intro p
      cases p with
      | none => exact Nat.le_refl _
      | some p => exact hbad
    | cons b bs ih =>
      intro p
      have hstep := length_decodeStep hbad p b
      have hrest := ih (decodeStep bad p b).2
      rw [decodeFrom, List.length_append, List.length_cons]
      omega
  have hall := hread bs none
  rwa [owed, Nat.zero_add] at hall

end Decode

/-! ### Strictly, and in ASCII -/

/-- `bs.decode("utf-8")`: the text that the bytes are the encoding of; `none` when it raises. -/
def decodeStrict (bs : List ℕ) : Option Str := if encode (decode [] bs) = bs then some (decode [] bs) else none

theorem decodeStrict_encode {s : Str} (hs : ∀ c ∈ s, Scalar c) : decodeStrict (encode s) = some s := by
  rw [decodeStrict, decode_encode hs, if_pos rfl]

/-- Only characters of ASCII. -/
def Ascii (s : Str) : Prop := ∀ c ∈ s, c < 128

instance (s : Str) : Decidable (Ascii s) := inferInstanceAs (Decidable (∀ c ∈ s, c < 128))

variable {s : Str}

theorem Ascii.scalar (h : Ascii s) : ∀ c ∈ s, Scalar c := fun c hc => by
  have hlt := h c hc
  unfold Scalar
  omega

theorem Ascii.append {t : Str} (hs : Ascii s) (ht : Ascii t) : Ascii (s ++ t) := List.forall_mem_append.mpr ⟨hs, ht⟩

/-- Characters of ASCII are their bytes. -/
theorem Ascii.encode (h : Ascii s) : encode s = s := by
  unfold Python.encode
  induction s with
  | nil => rfl
  | cons c s ih =>
    have hcons := List.forall_mem_cons.mp h
    rw [List.flatMap_cons, ih hcons.2, utf8, if_pos hcons.1]
    rfl

end Hawal.Lib.Python
