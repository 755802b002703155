import Hawal.Lib.Utf8
import Hawal.Lib.Words

/-!
# Responses

What `http.client` makes of the bytes that it receives until the connection ends. Interim responses, folded lines and
chunked bodies are left out.

* `readResponse` — the status and the body.
* `readResponse_response` — they are read as they were written.
* `readResponse_take` — of a response that is cut off no part of the body is read.
-/

namespace Hawal.Lib.Python

/-! ### Reading -/

/-- `_MAXLINE`, which counts the line feed. -/
def maxLine : ℕ := 65536

/-- `_MAXHEADERS`, which counts the empty line. -/
def maxHeaders : ℕ := 100

/-- The lines of a head up to an empty one, after `line`, of which no line feed was read; and what follows the empty
line. -/
def headLines : Str → List ℕ → Option (List Str × List ℕ)
  | line, [] => if maxLine < line.length then none else some ([line].filter fun l => !l.isEmpty, [])
  | line, b :: bs =>
    if b = 10 then
      if maxLine ≤ line.length then none
      else if line = [] ∨ line = [13] then some ([], bs)
      else (headLines [] bs).map fun r => (line :: r.1, r.2)
    else headLines (line ++ [b]) bs

/-- The status that the first line says. -/
def statusOf (line : Str) : Option ℤ :=
  match splitWords line with
  | version :: status :: _ =>
    if str "HTTP/1." <+: version ∨ version = str "HTTP/0.9" then (parseInt status).filter fun n => 100 ≤ n && n ≤ 999
    else none
  | _ => none

/-- `headers.get(name)`: of the lines of a name the first counts. -/
def headerValue (name : String) (lines : List Str) : Option Str :=
  (lines.find? fun l => decide (lower (before ':'.toNat l) = str name)).bind (after ':'.toNat)

/-- How many bytes of a body there are; `none` when it ends with the connection. -/
def bodyLength (status : ℤ) (lines : List Str) : Option ℕ :=
  if status = 204 ∨ status = 304 ∨ status < 200 then some 0
  else (((headerValue "content-length" lines).bind parseInt).filter fun n => 0 ≤ n).map Int.toNat

/-- `getresponse()` and `read()`: the status and the body; `none` when one of them raises. -/
def readResponse (bs : List ℕ) : Option (ℤ × List ℕ) :=
  match headLines [] bs with
  | some (line :: lines, rest) =>
    if maxHeaders ≤ lines.length then none
    else
      (statusOf line).bind fun status =>
        match bodyLength status lines with
        | some n => if rest.length < n then none else some (status, rest.take n)
        | none => some (status, rest)
  | _ => none

variable {bs rest : List ℕ} {line : Str} {lines : List Str}

/-! ### Heads -/

theorem headLines_append {l : Str} (hl : 10 ∉ l) (line : Str) (bs : List ℕ) :
    headLines line (l ++ bs) = headLines (line ++ l) bs := by
  induction l generalizing line with
  | nil => simp
  | cons b l ih =>
    have hcons : b ≠ 10 ∧ 10 ∉ l := by simpa [eq_comm] using hl
    simp [headLines, hcons.1, ih hcons.2]

/-- Either the bytes end before the head does, or what follows them is not looked at. -/
theorem headLines_local (h : headLines line bs = some (lines, rest)) :
    rest = [] ∨ ∀ more, headLines line (bs ++ more) = some (lines, rest ++ more) := by
  induction bs generalizing line lines with
  | nil =>
    unfold headLines at h
    split at h
    · cases h
    · exact .inl (Prod.mk.inj (Option.some.inj h)).2.symm
  | cons b bs ih =>
    rw [headLines] at h
    split_ifs at h with hb hlimit hempty
    · cases h
      exact .inr fun more => by simp [headLines, hb, hlimit, hempty]
    · obtain ⟨⟨later, rest'⟩, hlater, heq⟩ := Option.map_eq_some_iff.mp h
      cases heq
      refine (ih hlater).imp_right fun hlocal more => ?_
      simp [headLines, hb, hlimit, hempty, hlocal]
    · refine (ih h).imp_right fun hlocal more => ?_
      simp [headLines, hb, hlocal]

/-- The first line. -/
theorem headLines_first {first : Str} (h : headLines line bs = some (first :: lines, rest)) :
    first = line ++ bs.takeWhile fun b => decide (b ≠ 10) := by
  induction bs generalizing line with
  | nil =>
    rw [headLines] at h
    split at h
    · cases h
    · cases line with
      | nil => simp at h
      | cons c line =>
        simp at h
        simp [← h.1.1]
  | cons b bs ih =>
    rw [headLines] at h
    split_ifs at h with hb hlimit hempty
    · cases h
    · obtain ⟨⟨later, rest'⟩, -, heq⟩ := Option.map_eq_some_iff.mp h
      cases heq
      simp [hb]
    · rw [ih h]
      simp [hb]

/-! ### Writing -/

/-- A head: its lines, and the empty one. -/
def headText (lines : List Str) : Str := (lines.flatMap fun l => l ++ str "\r\n") ++ str "\r\n"

/-- The lines of a head that can be written. -/
structure WellFormed (lines : List Str) : Prop where
  unbroken : ∀ l ∈ lines, 10 ∉ l
  nonempty : ∀ l ∈ lines, l ≠ []
  short : ∀ l ∈ lines, l.length + 1 < maxLine

/-- The lines are read as they were written, each with a carriage return. -/
theorem headLines_headText (h : WellFormed lines) (bs : List ℕ) :
    headLines [] (headText lines ++ bs) = some (lines.map fun l => l ++ [13], bs) := by
  obtain ⟨hbreak, hne, hshort⟩ := h
  induction lines with
  | nil => rfl
  | cons l lines ih =>
    rw [List.forall_mem_cons] at hbreak hne hshort
    have hline : 10 ∉ l ++ [13] := by simp [hbreak.1]
    have hfull : ¬ maxLine ≤ (l ++ [13]).length := by simpa using hshort.1
    have hbytes : headText (l :: lines) ++ bs = (l ++ [13]) ++ 10 :: (headText lines ++ bs) := by
      simp [headText, str]
    rw [hbytes, headLines_append hline, List.nil_append, headLines, if_pos rfl, if_neg hfull,
      if_neg (by simp [hne.1]), ih hbreak.2 hne.2 hshort.2]
    rfl

/-- The bytes up to the first line feed. -/
theorem takeWhile_headText (h : 10 ∉ line) (lines : List Str) (bs : List ℕ) :
    (headText (line :: lines) ++ bs).takeWhile (fun b => decide (b ≠ 10)) = line ++ [13] := by
  have hline : ∀ b ∈ line ++ [13], decide (b ≠ 10) = true := by
    intro b hb
    rcases List.mem_append.mp hb with hb | hb
    · exact decide_eq_true (ne_of_mem_of_not_mem hb h)
    · exact List.mem_singleton.mp hb ▸ rfl
  have hbytes : headText (line :: lines) ++ bs = (line ++ [13]) ++ 10 :: (headText lines ++ bs) := by
    simp [headText, str]
  rw [hbytes, List.takeWhile_append_of_pos hline, List.takeWhile_cons_of_neg (by simp), List.append_nil]

/-- White space around a number does not matter. -/
theorem parseInt_around {s t u : Str} (hs : ∀ c ∈ s, isAsciiSpace c = true) (hu : ∀ c ∈ u, isAsciiSpace c = true) :
    parseInt (s ++ t ++ u) = parseInt t := by
  have hsmall : ∀ c, isAsciiSpace c = true → c < 128 := by
    intro c hc
    simp [isAsciiSpace] at hc
    omega
  have hspace : ∀ c, isAsciiSpace c = true → isSpace c = true := by
    intro c hc
    have hall : ∀ c < 128, isAsciiSpace c = true → isSpace c = true := by decide
    exact hall c (hsmall c hc) hc
  have hascii : ((s ++ t ++ u).all fun c => decide (c < 128)) = t.all fun c => decide (c < 128) := by
    have hside : ∀ v : Str, (∀ c ∈ v, isAsciiSpace c = true) → (v.all fun c => decide (c < 128)) = true :=
      fun v hv => List.all_eq_true.mpr fun c hc => decide_eq_true (hsmall c (hv c hc))
    rw [List.all_append, List.all_append, hside s hs, hside u hu, Bool.true_and, Bool.and_true]
  have hstrip : ∀ p : ℕ → Bool, (∀ c, isAsciiSpace c = true → p c = true) → stripBy p (s ++ t ++ u) = stripBy p t :=
    fun p hp => by rw [stripBy_append_right fun c hc => hp c (hu c hc), stripBy_append_left fun c hc => hp c (hs c hc)]
  unfold parseInt
  rw [hascii]
  cases t.all fun c => decide (c < 128) with
  | true => simp only [if_true, hstrip isAsciiSpace fun c hc => hc]
  | false => simp only [Bool.false_eq_true, if_false, hstrip isSpace hspace]

/-- How long the body is. -/
theorem bodyLength_of_header {status : ℤ} (hstatus : 200 ≤ status ∧ status ≠ 204 ∧ status ≠ 304) {n : ℕ}
    (hn : (natDigits n).length ≤ maxStrDigits) {s : Str} (hs : ∀ c ∈ s, isAsciiSpace c = true)
    (h : headerValue "content-length" lines = some (str " " ++ natDigits n ++ s)) :
    bodyLength status lines = some n := by
  have hparse : parseInt (natDigits n) = some (n : ℤ) := parseInt_decimal (n := (n : ℤ)) hn
  rw [bodyLength, if_neg (by omega), h, Option.bind_some, parseInt_around (by decide) hs, hparse]
  simp

/-- The status that is read is that of the first line. -/
theorem statusOf_of_readResponse {status : ℤ} {body : List ℕ} (h : readResponse bs = some (status, body)) :
    statusOf (bs.takeWhile fun b => decide (b ≠ 10)) = some status := by
  unfold readResponse at h
  split at h
  · rename_i first lines rest hhead
    split at h
    · cases h
    obtain ⟨status', hfirst, hread⟩ := Option.bind_eq_some_iff.mp h
    have hline := headLines_first hhead
    rw [List.nil_append] at hline
    rw [← hline, hfirst]
    split at hread
    · split at hread
      · cases hread
      · cases hread
        rfl
    · cases hread
      rfl
  · cases h

/-- A line that is cut off is the beginning of this line. -/
theorem takeWhile_take_prefix (p : ℕ → Bool) (k : ℕ) (bs : List ℕ) : (bs.take k).takeWhile p <+: bs.takeWhile p := by
  conv_rhs => rw [← List.take_append_drop k bs]
  rw [List.takeWhile_append]
  split
  · exact (List.takeWhile_prefix p).trans (List.prefix_append _ _)
  · exact List.prefix_rfl

/-! ### Whole responses -/

/-- A response that is written as a server writes it. -/
structure Response where
  first : Str
  lines : List Str
  body : List ℕ
  status : ℤ
  status_eq : statusOf (first ++ [13]) = some status
  wellFormed : WellFormed (first :: lines)
  few : lines.length < maxHeaders
  success : 200 ≤ status ∧ status ≠ 204 ∧ status ≠ 304
  short : (natDigits body.length).length ≤ maxStrDigits
  length_eq : headerValue "content-length" (lines.map fun l => l ++ [13]) =
    some (str " " ++ natDigits body.length ++ [13])

namespace Response

variable (r : Response)

/-- The bytes. -/
def bytes : List ℕ := headText (r.first :: r.lines) ++ r.body

theorem bodyLength_eq : bodyLength r.status (r.lines.map fun l => l ++ [13]) = some r.body.length :=
  bodyLength_of_header r.success r.short (by decide) r.length_eq

/-- **A response is read as it was written.** -/
theorem readResponse_bytes : readResponse r.bytes = some (r.status, r.body) := by
  have hfew : ¬ maxHeaders ≤ (r.lines.map fun l => l ++ [13]).length := by simpa using r.few
  simp only [readResponse, bytes, headLines_headText r.wellFormed, List.map_cons, if_neg hfew, r.status_eq,
    Option.bind_some, r.bodyLength_eq]
  simp

/-- **Of a response that is cut off no part of the body is read.** -/
theorem readResponse_take {k : ℕ} (hk : k < r.bytes.length) {status : ℤ} {body : List ℕ}
    (h : readResponse (r.bytes.take k) = some (status, body)) : body = [] := by
  unfold readResponse at h
  split at h
  · rename_i first lines rest hhead
    split at h
    · cases h
    obtain ⟨status', hfirst, hread⟩ := Option.bind_eq_some_iff.mp h
    rcases headLines_local hhead with rfl | hlocal
    · split at hread
      · split at hread
        · cases hread
        · cases hread
          exact List.take_nil
      · cases hread
        rfl
    · -- the head is whole, so that the body is not
      have hbytes := hlocal (r.bytes.drop k)
      have hwhole : headLines [] r.bytes = some ((r.first :: r.lines).map fun l => l ++ [13], r.body) :=
        headLines_headText r.wellFormed r.body
      rw [List.take_append_drop, hwhole, List.map_cons] at hbytes
      obtain ⟨hlines, hbody⟩ := Prod.mk.inj (Option.some.inj hbytes)
      obtain ⟨rfl, rfl⟩ := List.cons.inj hlines
      have hstatus : status' = r.status := Option.some.inj (hfirst.symm.trans r.status_eq)
      have hshort : rest.length < r.body.length := by
        rw [hbody, List.length_append, List.length_drop]
        omega
      simp only [hstatus, r.bodyLength_eq, if_pos hshort] at hread
      cases hread
  · cases h

end Response

end Hawal.Lib.Python
