import Hawal.Lib.Response
import Hawal.Panel.Routes

/-!
# Answers

`send_json` writes the head of an answer and the text of its value, and the connection is closed then.

* `sendJson` — the bytes.
* `jsonResponse` — they are a response that is read as it was written.
-/

namespace Hawal.Panel

open Hawal.Lib Hawal.Lib.Python

/-- `status_text`. -/
def statusText (status : ℕ) : Str :=
  if status = 200 then str "OK" else if status = 404 then str "Not Found" else str "Error"

/-- The first line of an answer. -/
def statusLine (status : ℕ) : Str := str "HTTP/1.1 " ++ natDigits status ++ str " " ++ statusText status

/-- The lines after it, for a body of this length. -/
def answerLines (length : ℕ) : List Str :=
  [str "Content-Type: application/json; charset=utf-8", str "Content-Length: " ++ natDigits length,
    str "Access-Control-Allow-Origin: *", str "Access-Control-Allow-Methods: GET, POST, DELETE, OPTIONS",
    str "Access-Control-Allow-Headers: Content-Type, X-Node-Token", str "Connection: close"]

/-- `send_json`, for `json.dumps(data)`. -/
def sendJson (status : ℕ) (data : Str) : List ℕ :=
  encode (headText (statusLine status :: answerLines (encode data).length)) ++ encode data

variable {status : ℕ}

/-! ### The head -/

theorem ascii_natDigits (n : ℕ) : Ascii (natDigits n) := fun c hc => by
  have := (isDigit_of_mem_natDigits hc).2
  omega

theorem ascii_statusLine (status : ℕ) : Ascii (statusLine status) := by
  have htext : Ascii (statusText status) := by
    unfold statusText
    split_ifs <;> decide
  exact ((Ascii.append (by decide) (ascii_natDigits status)).append (by decide)).append htext

theorem ascii_headText {lines : List Str} (h : ∀ l ∈ lines, Ascii l) : Ascii (headText lines) := by
  refine Ascii.append (fun c hc => ?_) (by decide)
  obtain ⟨l, hl, hc⟩ := List.mem_flatMap.mp hc
  exact (h l hl).append (by decide) c hc

theorem sendJson_eq (status : ℕ) (data : Str) :
    sendJson status data = headText (statusLine status :: answerLines (encode data).length) ++ encode data := by
  have hlines : ∀ l ∈ statusLine status :: answerLines (encode data).length, Ascii l := by
    simp only [answerLines, List.forall_mem_cons]
    exact ⟨ascii_statusLine status, by decide, Ascii.append (by decide) (ascii_natDigits _), by decide⟩
  rw [sendJson, (ascii_headText hlines).encode]

theorem length_natDigits_le (h : status ≤ 999) : (natDigits status).length ≤ 3 := by
  rw [natDigits, List.length_map, Nat.length_toDigits_le_iff (by decide) (by decide)]
  omega

theorem statusOf_statusLine (hstatus : 100 ≤ status ∧ status ≤ 999) :
    statusOf (statusLine status ++ [13]) = some (status : ℤ) := by
  have hspace : ∀ c ∈ natDigits status, isSpace c = false := fun c hc =>
    isSpace_of_isDigit (isDigit_of_mem_natDigits hc)
  have hversion : IsWord (str "HTTP/1.1") := by decide
  have hdigits : IsWord (natDigits status) := ⟨natDigits_ne_nil status, hspace⟩
  have hline : statusLine status ++ [13] =
      str "HTTP/1.1" ++ 32 :: (natDigits status ++ 32 :: (statusText status ++ [13])) := by
    simp [statusLine, str]
  have hshort : (natDigits status).length ≤ maxStrDigits := (length_natDigits_le hstatus.2).trans (by decide)
  have hparse : parseInt (natDigits status) = some (status : ℤ) := parseInt_decimal (n := (status : ℤ)) hshort
  have hstarts : str "HTTP/1." <+: str "HTTP/1.1" := by decide
  rw [hline, statusOf, splitWords_cons hversion (by decide), splitWords_cons hdigits (by decide)]
  simp only [hstarts, true_or, if_true, hparse]
  simp [Option.filter]
  omega

theorem notMem_natDigits (n : ℕ) : 10 ∉ natDigits n :=
  notMem_of_isDigit (by simp [IsDigit]) fun _ hc => isDigit_of_mem_natDigits hc

theorem notMem_statusLine (status : ℕ) : 10 ∉ statusLine status := by
  have htext : 10 ∉ statusText status := by
    unfold statusText
    split_ifs <;> decide
  simp only [statusLine, List.mem_append, not_or]
  exact ⟨⟨⟨by decide, notMem_natDigits status⟩, by decide⟩, htext⟩

theorem wellFormed_answer (hstatus : status ≤ 999) {n : ℕ} (hn : (natDigits n).length ≤ maxStrDigits) :
    WellFormed (statusLine status :: answerLines n) := by
  have hdigits := length_natDigits_le hstatus
  refine ⟨?_, ?_, ?_⟩
  all_goals
    simp only [answerLines, List.forall_mem_cons]
  · refine ⟨notMem_statusLine status, by decide, ?_, by decide⟩
    simp only [List.mem_append, not_or]
    exact ⟨by decide, notMem_natDigits n⟩
  · refine ⟨?_, by decide, ?_, by decide⟩
    · exact List.append_ne_nil_of_left_ne_nil (List.append_ne_nil_of_left_ne_nil
        (List.append_ne_nil_of_left_ne_nil (by decide) _) _) _
    · exact List.append_ne_nil_of_left_ne_nil (by decide) _
  · have htext : (statusText status).length ≤ 9 := by
      unfold statusText
      split_ifs <;> decide
    have hlimits : maxLine = 65536 ∧ maxStrDigits = 4300 := ⟨rfl, rfl⟩
    refine ⟨?_, by decide, ?_, by decide⟩
    · have hstart : (str "HTTP/1.1 ").length = 9 ∧ (str " ").length = 1 := ⟨rfl, rfl⟩
      simp only [statusLine, List.length_append]
      omega
    · have hstart : (str "Content-Length: ").length = 16 := rfl
      simp only [List.length_append]
      omega

theorem headerValue_answerLines (n : ℕ) : headerValue "content-length" ((answerLines n).map fun l => l ++ [13]) =
    some (str " " ++ natDigits n ++ [13]) := by
  have hname : ':'.toNat ∉ str "Content-Length" := by decide
  have hline : str "Content-Length: " ++ natDigits n ++ [13] =
      str "Content-Length" ++ ':'.toNat :: (str " " ++ natDigits n ++ [13]) := by simp [str]
  have hfirst : ¬ lower (before ':'.toNat (str "Content-Type: application/json; charset=utf-8" ++ [13])) =
      str "content-length" := by decide
  have hlower : lower (str "Content-Length") = str "content-length" := by decide
  rw [headerValue, answerLines, List.map_cons, List.map_cons, List.find?_cons_of_neg (by simpa using hfirst), hline,
    List.find?_cons_of_pos (by rw [before_append hname, hlower]; simp), Option.bind_some, after_append hname]

/-- **An answer is a response**: it is read as it was written. -/
def jsonResponse (status : ℕ) (hstatus : 200 ≤ status ∧ status ≤ 999 ∧ status ≠ 204 ∧ status ≠ 304) (data : Str)
    (hdata : (natDigits (encode data).length).length ≤ maxStrDigits) : Response where
  first := statusLine status
  lines := answerLines (encode data).length
  body := encode data
  status := status
  status_eq := statusOf_statusLine (by omega)
  wellFormed := wellFormed_answer (by omega) hdata
  few := (show 6 < maxHeaders by decide)
  success := by omega
  short := hdata
  length_eq := headerValue_answerLines _

theorem bytes_jsonResponse (hstatus : 200 ≤ status ∧ status ≤ 999 ∧ status ≠ 204 ∧ status ≠ 304) (data : Str)
    (hdata : (natDigits (encode data).length).length ≤ maxStrDigits) :
    (jsonResponse status hstatus data hdata).bytes = sendJson status data := (sendJson_eq status data).symm

end Hawal.Panel
