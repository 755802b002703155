import Hawal.Lib.Url
import Hawal.Panel.Isolation

/-!
# Reading a request

`handle_client` reads the line of a request, the lines of its headers up to an empty one, and as many bytes of a body
as `content-length` says. The bytes are those of the whole connection: `readline` and `readexactly` wait for what is
missing, so how they are cut into segments makes no difference. Time-outs are left out.

* `handleClient` — what becomes of a connection.
* `readHeaders_eq` — the loop over the lines.
* `handleClient_print` — a request that is written as a client writes it is routed as it was meant.
* `handleClient_local` — bytes after a request whose head has its empty line are never looked at, and no body is
  longer than the limit.
-/

namespace Hawal.Panel.Http

open Hawal.Lib Hawal.Lib.Python

/-! ### Lines -/

/-- The limit of a `StreamReader`. -/
def lineLimit : ℕ := 65536

/-- `MAX_HTTP_BODY_BYTES`. -/
def maxHttpBodyBytes : ℕ := 1024 * 1024

/-- `reader.readline()`: the bytes up to a line feed, or to the end, and what follows; `none` when it raises. -/
def readline (bs : List ℕ) : Option (List ℕ × List ℕ) :=
  let line := bs.takeWhile fun b => decide (b ≠ 10)
  if lineLimit < line.length then none
  else some (line ++ (bs.drop line.length).take 1, bs.drop (line.length + 1))

/-- `line.decode("utf-8", errors="ignore").strip()`. -/
def decodeLine (line : List ℕ) : Str := strip (decode [] line)

theorem encodable_infix {s t : Str} (ht : Encodable t) (h : s <:+: t) : Encodable s := fun c hc => ht c (h.subset hc)

theorem encodable_decodeLine (line : List ℕ) : Encodable (decodeLine line) :=
  encodable_infix (encodable_decode (List.forall_mem_nil _) line) (isInfix_strip _)

/-- What a line says, when there is a colon in it. -/
def headerOf (line : List ℕ) : Headers :=
  match h : after ':'.toNat (decodeLine line) with
  | some value =>
    have hvalue : strip value <:+: decodeLine line := (isInfix_strip value).trans (suffix_of_after h).isInfix
    [(lower (strip (before ':'.toNat (decodeLine line))),
      ⟨strip value, encodable_infix (encodable_decodeLine line) hvalue⟩)]
  | none => []

/-- The lines of the headers, after `line`, of which no line feed was read; and what follows the empty line. -/
def readHeaders : List ℕ → List ℕ → Option (Headers × List ℕ)
  | line, [] => if lineLimit < line.length then none else some (headerOf line, [])
  | line, b :: bs =>
    if b = 10 then
      if lineLimit < line.length then none
      else if line = [13] then some ([], bs)
      else (readHeaders [] bs).map fun r => (headerOf (line ++ [10]) ++ r.1, r.2)
    else readHeaders (line ++ [b]) bs

/-- What becomes of a connection. -/
inductive Handled where
  /-- It is closed without an answer. -/
  | closed
  /-- It is a WebSocket: the handshake is answered, and then the dashboard served, or the connection closed. -/
  | upgraded (key : Text) (dashboard : Bool)
  /-- Status 413. -/
  | tooLarge
  /-- Status 500. -/
  | raised
  | routed (method path : Str) (query : Query) (headers : Headers) (body : List ℕ)

section Handle

variable (netlocOk : Str → Bool)

/-- After the head of a request. -/
def handleHead (method target : Str) (headers : Headers) (bs : List ℕ) : Handled :=
  match urlparse netlocOk target with
  | none => .raised
  | some (rawPath, query) =>
    let key := headers.getText "sec-websocket-key"
    if lower (headers.getText "upgrade").val = str "websocket" ∧ key.val ≠ [] then
      .upgraded key (decide (rawPath = str "/ws"))
    else
      match parseInt (((headers.get "content-length").map Subtype.val).getD (str "0")) with
      | none => .raised
      | some length =>
        if length < 0 ∨ maxHttpBodyBytes < length then .tooLarge
        else if bs.length < length.toNat then .raised
        else .routed method rawPath (parseQsl query) headers (bs.take length.toNat)

/-- `handle_client`, for all bytes that the client sends. -/
def handleClient (bs : List ℕ) : Handled :=
  match readline bs with
  | none => .raised
  | some (line, rest) =>
    if line = [] then .closed
    else
      match splitWords (decodeLine line) with
      | method :: target :: _ =>
        match readHeaders [] rest with
        | none => .raised
        | some (headers, body) => handleHead netlocOk method target headers body
      | _ => .closed

end Handle

variable {netlocOk : Str → Bool} {bs line rest : List ℕ} {headers : Headers}

/-! ### Lines that end -/

theorem readline_append {l : List ℕ} (hl : 10 ∉ l) (rest : List ℕ) :
    readline (l ++ 10 :: rest) = if lineLimit < l.length then none else some (l ++ [10], rest) := by
  have htake : (l ++ 10 :: rest).takeWhile (fun b => decide (b ≠ 10)) = l := by
    rw [List.takeWhile_append_of_pos fun b hb => decide_eq_true (ne_of_mem_of_not_mem hb hl),
      List.takeWhile_cons_of_neg (by simp), List.append_nil]
  simp only [readline, htake]
  simp

theorem readline_end {l : List ℕ} (hl : 10 ∉ l) : readline l = if lineLimit < l.length then none else some (l, []) := by
  have htake : l.takeWhile (fun b => decide (b ≠ 10)) = l :=
    List.takeWhile_eq_self_iff.mpr fun b hb => decide_eq_true (ne_of_mem_of_not_mem hb hl)
  have hdrop : l.drop (l.length + 1) = [] := List.drop_eq_nil_of_le (Nat.le_succ _)
  simp only [readline, htake, hdrop]
  simp

theorem readHeaders_append {l : List ℕ} (hl : 10 ∉ l) (line bs : List ℕ) :
    readHeaders line (l ++ bs) = readHeaders (line ++ l) bs := by
  induction l generalizing line with
  | nil => rw [List.nil_append, List.append_nil]
  | cons b l ih =>
    have hcons : b ≠ 10 ∧ 10 ∉ l := by simpa [eq_comm] using hl
    rw [List.cons_append, readHeaders, if_neg hcons.1, ih hcons.2, List.append_assoc]
    rfl

/-- **The loop over the lines.** -/
theorem readHeaders_eq (bs : List ℕ) : readHeaders [] bs = (readline bs).bind fun r =>
    if r.1 = [] ∨ r.1 = [13, 10] then some ([], r.2)
    else (readHeaders [] r.2).map fun s => (headerOf r.1 ++ s.1, s.2) := by
  by_cases hmem : 10 ∈ bs
  · obtain ⟨l, rest, rfl, hl⟩ := List.eq_append_cons_of_mem hmem
    have hempty : l ++ [10] = [] ∨ l ++ [10] = [13, 10] ↔ l = [13] := by
      rw [show [13, 10] = [13] ++ [10] from rfl, List.append_left_inj]
      simp
    rw [readHeaders_append hl, List.nil_append, readHeaders, if_pos rfl, readline_append hl]
    split
    · rfl
    · rw [Option.bind_some]
      simp only [hempty]
  · have hread := readHeaders_append hmem [] []
    rw [List.append_nil, List.nil_append, readHeaders] at hread
    rw [hread, readline_end hmem]
    split
    · rfl
    · rw [Option.bind_some]
      have hline : ¬ bs = [13, 10] := fun h => hmem (h ▸ by decide)
      have hnothing : readHeaders [] [] = some ([], []) := rfl
      by_cases hbs : bs = []
      · subst hbs
        rfl
      · simp [hbs, hline, hnothing]

/-- The end of a head: the end of a line, and the empty line. -/
def blankLine : List ℕ := [10, 13, 10]

theorem infix_of_append {w l : List ℕ} {b : ℕ} (hl : b ∉ l) (bs : List ℕ) (h : b :: w <:+: l ++ bs) : b :: w <:+: bs := by
  induction l with
  | nil => exact h
  | cons c l ih =>
    rw [List.mem_cons, not_or] at hl
    rcases List.infix_cons_iff.mp h with hpre | hinfix
    · exact absurd (List.cons_prefix_cons.mp hpre).1 hl.1
    · exact ih hl.2 hinfix

/-- After a line that is not empty the end of the head is still to come. -/
theorem blankLine_of_line {l bs : List ℕ} (hl : 10 ∉ l) (hne : l ≠ [13]) (h : blankLine <:+: 10 :: (l ++ 10 :: bs)) :
    blankLine <:+: 10 :: bs := by
  rcases List.infix_cons_iff.mp h with hpre | hinfix
  · have hpre := (List.cons_prefix_cons.mp hpre).2
    rcases l with _ | ⟨b, _ | ⟨c, l⟩⟩
    · exact absurd (List.cons_prefix_cons.mp hpre).1 (by decide)
    · exact absurd (congrArg (fun b => [b]) (List.cons_prefix_cons.mp hpre).1.symm) hne
    · have hc := (List.cons_prefix_cons.mp (List.cons_prefix_cons.mp hpre).2).1
      exact absurd (List.mem_cons_of_mem _ (List.mem_cons.mpr (.inl hc))) hl
  · exact infix_of_append hl _ hinfix

/-- The bytes of a head: they end where their first empty line ends. -/
def IsHead (bs : List ℕ) : Prop := blankLine <:+ bs ∧ ¬ blankLine <:+: bs.dropLast

/-- A line that is not empty stands before a head. -/
theorem IsHead.of_line {l bs : List ℕ} (h : IsHead (10 :: bs)) (hl : 10 ∉ l) (hne : l ≠ [13]) :
    IsHead (10 :: (l ++ 10 :: bs)) := by
  have hbs : bs ≠ [] := by
    rintro rfl
    exact absurd h.1 (by decide)
  refine ⟨h.1.trans ((List.suffix_append l _).trans (List.suffix_cons _ _)), fun hinfix => h.2 ?_⟩
  rw [List.dropLast_cons_of_ne_nil (by simp), List.dropLast_append_of_ne_nil (List.cons_ne_nil _ _),
    List.dropLast_cons_of_ne_nil hbs] at hinfix
  rw [List.dropLast_cons_of_ne_nil hbs]
  exact blankLine_of_line hl hne hinfix

/-- So does a first line, whatever is in it. -/
theorem IsHead.of_append {l bs : List ℕ} (h : IsHead (10 :: bs)) (hl : 10 ∉ l) : IsHead (l ++ 10 :: bs) := by
  refine ⟨h.1.trans (List.suffix_append _ _), fun hinfix => h.2 ?_⟩
  rw [List.dropLast_append_of_ne_nil (List.cons_ne_nil _ _)] at hinfix
  exact infix_of_append hl _ hinfix

/-- What follows an empty line is left alone. -/
theorem readHeaders_local {line bs : List ℕ} (hline : 10 ∉ line) (hend : blankLine <:+: 10 :: (line ++ bs))
    (h : readHeaders line bs = some (headers, rest)) :
    ∃ used, bs = used ++ rest ∧ IsHead (10 :: (line ++ used)) ∧
      ∀ more, readHeaders line (used ++ more) = some (headers, more) := by
  induction bs generalizing line headers with
  | nil =>
    have hcount := hend.sublist.count_le 10
    rw [List.append_nil, List.count_cons_self, List.count_eq_zero_of_not_mem hline] at hcount
    exact absurd hcount (by decide)
  | cons b bs ih =>
    rw [readHeaders] at h
    split_ifs at h with hb hlimit hempty
    · obtain ⟨rfl, rfl⟩ := Prod.mk.inj (Option.some.inj h)
      refine ⟨[b], rfl, ?_, fun more => ?_⟩
      · rw [hempty, hb]
        exact ⟨List.suffix_rfl, by decide⟩
      · rw [List.singleton_append, readHeaders, if_pos hb, if_neg hlimit, if_pos hempty]
    · obtain ⟨⟨later, rest'⟩, hlater, heq⟩ := Option.map_eq_some_iff.mp h
      obtain ⟨rfl, rfl⟩ := Prod.mk.inj heq
      rw [hb] at hend
      obtain ⟨used, rfl, hhead, hused⟩ := ih List.not_mem_nil (blankLine_of_line hline hempty hend) hlater
      refine ⟨b :: used, rfl, ?_, fun more => ?_⟩
      · rw [hb]
        exact hhead.of_line hline hempty
      · rw [List.cons_append, readHeaders, if_pos hb, if_neg hlimit, if_neg hempty, hused]
        rfl
    · have hline' : 10 ∉ line ++ [b] := by
        rw [List.mem_append, List.mem_singleton, not_or]
        exact ⟨hline, Ne.symm hb⟩
      obtain ⟨used, rfl, hhead, hused⟩ := ih hline' (by simpa using hend) h
      refine ⟨b :: used, rfl, by simpa using hhead, fun more => ?_⟩
      rw [List.cons_append, readHeaders, if_neg hb, hused]

theorem handleHead_local {method target method' path : Str} {query : Query} {headers' : Headers} {body : List ℕ}
    (h : handleHead netlocOk method target headers bs = .routed method' path query headers' body) :
    body.length ≤ maxHttpBodyBytes ∧ ∃ more, bs = body ++ more ∧
      ∀ more', handleHead netlocOk method target headers (body ++ more') =
        .routed method' path query headers' body := by
  unfold handleHead at h ⊢
  cases hurl : urlparse netlocOk target with
  | none => simp [hurl] at h
  | some parts =>
    obtain ⟨rawPath, rawQuery⟩ := parts
    simp only [hurl] at h ⊢
    split at h
    · cases h
    · rename_i hupgrade
      cases hlength : parseInt (((headers.get "content-length").map Subtype.val).getD (str "0")) with
      | none =>
        rw [hlength] at h
        cases h
      | some length =>
        rw [hlength] at h
        dsimp only at h ⊢
        split_ifs at h with hlarge hshort
        cases h
        have hlen : (bs.take length.toNat).length = length.toNat := by
          rw [List.length_take]
          omega
        refine ⟨?_, bs.drop length.toNat, (List.take_append_drop _ _).symm, fun more' => ?_⟩
        · rw [hlen]
          omega
        · rw [if_neg hupgrade, if_neg hlarge, if_neg (by rw [List.length_append]; omega), List.take_left' hlen]

/-! ### Requests of a client -/

/-- A request, as a client means it. -/
structure Message where
  method : Str
  path : Str
  query : Str
  headers : List (Str × Text)
  body : List ℕ

/-- The line of a header, but for its line feed. -/
def headerLine (h : Str × Text) : Str := h.1 ++ ':'.toNat :: (str " " ++ h.2.val ++ str "\r")

namespace Message

variable (m : Message)

/-- The first line, but for its line feed. -/
def requestLine : Str := m.method ++ 32 :: (targetOf m.path m.query ++ 32 :: str "HTTP/1.1\r")

/-- What a client writes. -/
def print : List ℕ :=
  encode (m.requestLine ++ str "\n" ++ (m.headers.flatMap fun h => headerLine h ++ str "\n") ++ str "\r\n") ++ m.body

/-- The value of a header, as it is kept. -/
def trim (t : Text) : Text := ⟨strip t.val, encodable_infix t.property (isInfix_strip _)⟩

/-- The headers, as they are kept. -/
def received : Headers := m.headers.map fun h => (lower (strip h.1), trim h.2)

/-- What a client sees to: names and values stay in their lines, which are not too long, the target has no blanks, the
length of the body is given, and no WebSocket is asked for. -/
structure Plain : Prop where
  method : IsWord m.method ∧ ∀ c ∈ m.method, Scalar c
  path : IsPath m.path
  target : ∀ c ∈ targetOf m.path m.query, isSpace c = false ∧ Scalar c ∧ c ≠ '#'.toNat
  line : (encode m.requestLine).length ≤ lineLimit
  names : ∀ h ∈ m.headers, ':'.toNat ∉ h.1 ∧ 10 ∉ h.1 ∧ ∀ c ∈ h.1, Scalar c
  values : ∀ h ∈ m.headers, 10 ∉ h.2.val ∧ ∀ c ∈ h.2.val, Scalar c
  lines : ∀ h ∈ m.headers, (encode (headerLine h)).length ≤ lineLimit
  length : ((m.received.get "content-length").map Subtype.val).getD (str "0") = natDigits m.body.length
  digits : (natDigits m.body.length).length ≤ maxStrDigits
  upgrade : lower (m.received.getText "upgrade").val ≠ str "websocket"

instance : Decidable m.Plain :=
  decidable_of_iff (_ ∧ _ ∧ _ ∧ _ ∧ _ ∧ _ ∧ _ ∧ _ ∧ _ ∧ _)
    ⟨fun ⟨h₁, h₂, h₃, h₄, h₅, h₆, h₇, h₈, h₉, h₁₀⟩ => ⟨h₁, h₂, h₃, h₄, h₅, h₆, h₇, h₈, h₉, h₁₀⟩,
      fun h => ⟨h.method, h.path, h.target, h.line, h.names, h.values, h.lines, h.length, h.digits, h.upgrade⟩⟩

end Message

/-! ### Reading what a client writes -/

theorem headerOf_eq {value : Str} (h : after ':'.toNat (decodeLine line) = some value) :
    headerOf line = [(lower (strip (before ':'.toNat (decodeLine line))),
      ⟨strip value, encodable_infix (encodable_decodeLine line)
        ((isInfix_strip value).trans (suffix_of_after h).isInfix)⟩)] := by
  unfold headerOf
  split
  · rename_i value' h'
    cases h.symm.trans h'
    rfl
  · rename_i h'
    rw [h] at h'
    cases h'

theorem decodeLine_encode {s : Str} (hs : ∀ c ∈ s, Scalar c) : decodeLine (encode s) = strip s := by
  rw [decodeLine, decode_encode hs]

/-- A header is read as it was written, but for blanks around it. -/
theorem headerOf_headerLine {h : Str × Text} (hname : ':'.toNat ∉ h.1 ∧ 10 ∉ h.1 ∧ ∀ c ∈ h.1, Scalar c)
    (hvalue : 10 ∉ h.2.val ∧ ∀ c ∈ h.2.val, Scalar c) :
    headerOf (encode (headerLine h) ++ [10]) = [(lower (strip h.1), Message.trim h.2)] := by
  have hscalar : ∀ c ∈ headerLine h ++ str "\n", Scalar c := by
    have hmarks : ∀ c ∈ str ": \r\n", Scalar c := by decide
    intro c hc
    simp only [headerLine, List.mem_append, List.mem_cons] at hc
    rcases hc with (hc | rfl | (hc | hc) | hc) | hc
    · exact hname.2.2 c hc
    · decide
    · exact hmarks c (by revert c; decide)
    · exact hvalue.2 c hc
    · exact hmarks c (by revert c; decide)
    · exact hmarks c (by revert c; decide)
  have hbytes : encode (headerLine h) ++ [10] = encode (headerLine h ++ str "\n") := by
    rw [encode_append]
    rfl
  have hline : headerLine h ++ str "\n" = h.1 ++ ':'.toNat :: (str " " ++ h.2.val ++ str "\r\n") := by
    simp [headerLine, str]
  have hdecoded : decodeLine (encode (headerLine h) ++ [10]) = h.1.dropWhile isSpace ++
      ':'.toNat :: (str " " ++ h.2.val ++ str "\r\n").rdropWhile isSpace := by
    rw [hbytes, decodeLine_encode hscalar, hline]
    exact stripBy_around (by decide) _ _
  have hcolon : ':'.toNat ∉ h.1.dropWhile isSpace := fun hmem => hname.1 ((List.dropWhile_suffix _).subset hmem)
  have hafter := after_append hcolon ((str " " ++ h.2.val ++ str "\r\n").rdropWhile isSpace)
  have hbefore := before_append hcolon ((str " " ++ h.2.val ++ str "\r\n").rdropWhile isSpace)
  rw [← hdecoded] at hafter hbefore
  have hstart : strip (h.1.dropWhile isSpace) = strip h.1 := stripBy_dropWhile _ _
  have hend : strip ((str " " ++ h.2.val ++ str "\r\n").rdropWhile isSpace) = strip h.2.val := by
    have hright : ∀ c ∈ str "\r\n", isSpace c = true := by decide
    have hleft : ∀ c ∈ str " ", isSpace c = true := by decide
    rw [strip, stripBy_rdropWhile, stripBy_append_right hright, stripBy_append_left hleft]
    rfl
  rw [headerOf_eq hafter]
  simp only [hbefore, hstart, hend]
  rfl

theorem readHeaders_line {l : List ℕ} (hl : 10 ∉ l) (hlimit : l.length ≤ lineLimit) (hne : l ≠ [13]) (bs : List ℕ) :
    readHeaders [] (l ++ 10 :: bs) = (readHeaders [] bs).map fun r => (headerOf (l ++ [10]) ++ r.1, r.2) := by
  have hempty : ¬ (l ++ [10] = [] ∨ l ++ [10] = [13, 10]) := by
    rw [show [13, 10] = [13] ++ [10] from rfl, List.append_left_inj]
    simpa using hne
  rw [readHeaders_eq, readline_append hl, if_neg (Nat.not_lt.mpr hlimit), Option.bind_some, if_neg hempty]

/-- The lines of the headers are read as they were written. -/
theorem readHeaders_print {hs : List (Str × Text)}
    (hnames : ∀ h ∈ hs, ':'.toNat ∉ h.1 ∧ 10 ∉ h.1 ∧ ∀ c ∈ h.1, Scalar c)
    (hvalues : ∀ h ∈ hs, 10 ∉ h.2.val ∧ ∀ c ∈ h.2.val, Scalar c)
    (hlines : ∀ h ∈ hs, (encode (headerLine h)).length ≤ lineLimit) (bs : List ℕ) :
    readHeaders [] (encode ((hs.flatMap fun h => headerLine h ++ str "\n") ++ str "\r\n") ++ bs) =
      some (hs.map fun h => (lower (strip h.1), Message.trim h.2), bs) := by
  induction hs with
  | nil => rfl
  | cons h hs ih =>
    rw [List.forall_mem_cons] at hnames hvalues hlines
    have hbreak : 10 ∉ headerLine h := by
      simp only [headerLine, List.mem_append, List.mem_cons, not_or]
      exact ⟨hnames.1.2.1, by decide, ⟨by decide, hvalues.1.1⟩, by decide⟩
    have hcolon : encode (headerLine h) ≠ [13] := by
      intro hempty
      have hmem : ':'.toNat ∈ encode (headerLine h) :=
        List.mem_flatMap.mpr ⟨':'.toNat, by simp [headerLine], by decide⟩
      rw [hempty] at hmem
      exact absurd hmem (by decide)
    have hbytes : encode (((h :: hs).flatMap fun h => headerLine h ++ str "\n") ++ str "\r\n") ++ bs =
        encode (headerLine h) ++
          10 :: (encode ((hs.flatMap fun h => headerLine h ++ str "\n") ++ str "\r\n") ++ bs) := by
      simp only [List.flatMap_cons, encode_append, List.append_assoc]
      rfl
    rw [hbytes, readHeaders_line (notMem_encode (by decide) hbreak) hlines.1 hcolon, ih hnames.2 hvalues.2 hlines.2,
      headerOf_headerLine hnames.1 hvalues.1]
    rfl

theorem splitWords_requestLine {m : Message} (h : m.Plain) :
    splitWords (decodeLine (encode m.requestLine ++ [10])) = [m.method, targetOf m.path m.query, str "HTTP/1.1"] := by
  have htarget : IsWord (targetOf m.path m.query) := by
    refine ⟨?_, fun c hc => (h.target c hc).1⟩
    have hpath : m.path ≠ [] := by
      intro hnil
      have hslash := h.path.1
      rw [hnil] at hslash
      cases hslash
    unfold targetOf
    split
    · exact hpath
    · exact List.append_ne_nil_of_left_ne_nil hpath _
  have hversion : IsWord (str "HTTP/1.1") := by decide
  have hmarks : ∀ c ∈ str " HTTP/1.1\r\n", Scalar c := by decide
  have hline : m.requestLine ++ str "\n" =
      m.method ++ (32 :: (targetOf m.path m.query ++ [32])) ++ str "HTTP/1.1" ++ str "\r\n" := by
    simp [Message.requestLine, str]
  have hscalar : ∀ c ∈ m.requestLine ++ str "\n", Scalar c := by
    intro c hc
    rw [hline] at hc
    simp only [List.mem_append, List.mem_cons] at hc
    rcases hc with ((hc | rfl | hc | rfl | hc) | hc) | hc
    · exact h.method.2 c hc
    · decide
    · exact (h.target c hc).2.1
    · decide
    · cases hc
    · exact hmarks c (by revert c; decide)
    · exact hmarks c (by revert c; decide)
  have hbytes : encode m.requestLine ++ [10] = encode (m.requestLine ++ str "\n") := by
    rw [encode_append]
    rfl
  have hright : ∀ c ∈ str "\r\n", isSpace c = true := by decide
  rw [hbytes, decodeLine_encode hscalar, hline, strip, stripBy_append_right hright,
    stripBy_between h.method.1.1 hversion.1 h.method.1.2 hversion.2, List.append_assoc, List.cons_append,
    splitWords_cons h.method.1 (by decide), List.append_assoc, List.singleton_append,
    splitWords_cons htarget (by decide)]
  rfl

/-- **A request is routed as it was meant**: with its method, its path, its parameters, its headers and its body,
whatever bytes follow, unless the body is too large. -/
theorem handleClient_print (netlocOk : Str → Bool) {m : Message} (h : m.Plain) (more : List ℕ) :
    handleClient netlocOk (m.print ++ more) =
      if maxHttpBodyBytes < m.body.length then .tooLarge
      else .routed m.method m.path (parseQsl m.query) m.received m.body := by
  have hbreak : 10 ∉ m.requestLine := by
    have hspace : ∀ s : Str, (∀ c ∈ s, isSpace c = false) → 10 ∉ s := fun s hs hmem => by
      have hten := hs 10 hmem
      revert hten
      decide
    simp only [Message.requestLine, List.mem_append, List.mem_cons, not_or]
    exact ⟨hspace _ h.method.1.2, by decide, hspace _ fun c hc => (h.target c hc).1, by decide, by decide⟩
  have hbytes : m.print ++ more = encode m.requestLine ++ 10 ::
      (encode ((m.headers.flatMap fun h => headerLine h ++ str "\n") ++ str "\r\n") ++ (m.body ++ more)) := by
    simp only [Message.print, encode_append, List.append_assoc]
    rfl
  have hsub : ∀ c ∈ m.query, c ∈ targetOf m.path m.query := by
    intro c hc
    rw [targetOf, if_neg (List.ne_nil_of_mem hc)]
    exact List.mem_append_right _ (List.mem_cons_of_mem _ hc)
  have hurl : urlparse netlocOk (targetOf m.path m.query) = some (m.path, m.query) := by
    have hspaces : ∀ d ∈ [9, 10, 13], isSpace d = true := by decide
    refine urlparse_origin netlocOk h.path fun c hc hmem => ?_
    obtain ⟨hspace, -, hhash⟩ := h.target c (hsub c hc)
    rcases List.mem_append.mp hmem with hmem | hmem
    · rw [hspaces c hmem] at hspace
      cases hspace
    · exact hhash (List.mem_singleton.mp hmem)
  have hlength : parseInt (natDigits m.body.length) = some (m.body.length : ℤ) :=
    parseInt_decimal (n := (m.body.length : ℤ)) h.digits
  have hreceived : m.headers.map (fun h => (lower (strip h.1), Message.trim h.2)) = m.received := rfl
  rw [hbytes, handleClient, readline_append (notMem_encode (by decide) hbreak), if_neg (Nat.not_lt.mpr h.line)]
  simp only [splitWords_requestLine h, readHeaders_print h.names h.values h.lines, hreceived]
  rw [if_neg (by simp)]
  simp only [handleHead, hurl]
  rw [if_neg fun hup => h.upgrade hup.1, h.length, hlength]
  dsimp only
  by_cases hlarge : maxHttpBodyBytes < m.body.length
  · rw [if_pos (.inr (Int.ofNat_lt.mpr hlarge)), if_pos hlarge]
  · rw [if_neg (by omega), if_neg (by rw [List.length_append]; omega), if_neg hlarge, Int.toNat_natCast,
      List.take_left]

/-- A request of a dashboard. -/
def restartMessage : Message :=
  ⟨str "POST", str "/api/tunnels/tun_00000001/restart", [], [(str "Host", text "panel")], []⟩

theorem restartMessage_plain : restartMessage.Plain := by decide +kernel

/-! ### What follows a request -/

/-- **Bytes after a request are never looked at**, once its head has ended; and no body is longer than the limit. -/
theorem handleClient_local {method path : Str} {query : Query} {body : List ℕ}
    (h : handleClient netlocOk bs = .routed method path query headers body) :
    body.length ≤ maxHttpBodyBytes ∧ (blankLine <:+: bs → ∃ head more, bs = head ++ body ++ more ∧
      IsHead head ∧
        ∀ more', handleClient netlocOk (head ++ body ++ more') = .routed method path query headers body) := by
  unfold handleClient at h
  cases hline : readline bs with
  | none => simp [hline] at h
  | some parts =>
    obtain ⟨line, rest⟩ := parts
    simp only [hline] at h
    split at h
    · cases h
    rename_i hne
    split at h
    · rename_i method' target others hwords
      cases hheaders : readHeaders [] rest with
      | none => simp [hheaders] at h
      | some parts =>
        obtain ⟨headers', bytes⟩ := parts
        simp only [hheaders] at h
        obtain ⟨hmax, more, rfl, hbody⟩ := handleHead_local h
        refine ⟨hmax, fun hend => ?_⟩
        -- the head has a line feed, where its first line ends
        obtain ⟨l, bs', rfl, hl⟩ := List.eq_append_cons_of_mem (hend.subset (List.mem_cons_self (a := 10)))
        rw [readline_append hl, Option.ite_none_left_eq_some] at hline
        obtain ⟨hlimit, hline⟩ := hline
        obtain ⟨rfl, rfl⟩ := Prod.mk.inj (Option.some.inj hline)
        obtain ⟨used, rfl, hhead, hused⟩ :=
          readHeaders_local List.not_mem_nil (infix_of_append hl _ hend) hheaders
        refine ⟨l ++ 10 :: used, more, by simp, hhead.of_append hl, fun more' => ?_⟩
        have hread : readline (l ++ 10 :: used ++ body ++ more') = some (l ++ [10], used ++ (body ++ more')) := by
          rw [List.append_assoc, List.append_assoc, List.cons_append, readline_append hl, if_neg hlimit]
        simp only [handleClient, hread, if_neg hne, hwords, hused (body ++ more'), hbody more']
    · cases h

/-- A request with a body. -/
def trafficMessage : Message :=
  ⟨str "POST", str "/api/tunnels/traffic", [], [(str "Host", text "panel"), (str "Content-Length", text "14")],
    encode (str "\x7b\"reports\":[]\x7d")⟩

theorem trafficMessage_plain : trafficMessage.Plain := by decide +kernel

/-- Of two requests in one connection the first is routed, with its body. -/
theorem pipelined_local :
    handleClient (fun _ => true) (trafficMessage.print ++ restartMessage.print) =
        .routed trafficMessage.method trafficMessage.path [] trafficMessage.received trafficMessage.body ∧
      trafficMessage.body.length = 14 ∧
      ∃ head more, trafficMessage.print ++ restartMessage.print = head ++ trafficMessage.body ++ more ∧
        IsHead head ∧ ∀ more', handleClient (fun _ => true) (head ++ trafficMessage.body ++ more') =
          .routed trafficMessage.method trafficMessage.path [] trafficMessage.received trafficMessage.body := by
  have hrouted := handleClient_print (fun _ => true) trafficMessage_plain restartMessage.print
  rw [if_neg (by decide)] at hrouted
  exact ⟨hrouted, by decide, (handleClient_local hrouted).2 (by decide +kernel)⟩

end Hawal.Panel.Http
