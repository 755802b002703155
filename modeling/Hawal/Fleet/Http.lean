import Hawal.Lib.JsonBytes
import Hawal.Panel.Dispatch
import Hawal.Panel.Reply
import Hawal.Fleet.Wire
import Mathlib.Data.List.Infix

/-!
# A sync over HTTP

The agent opens a connection for each request, with its token in a header. What it takes from the bytes of an answer
is what the panel has found for its node (`sync_over_http`), and nothing when the connection is cut off, when the
token is not known, and when the panel raises.
-/

namespace Hawal.Fleet

open Hawal.Lib Hawal.Lib.Python Hawal.Panel Hawal.Panel.Http Hawal.Agent

/-! ### The request -/

/-- The header with the token. -/
def bearerHeader (token : Text) : Str × Text :=
  (str "Authorization", ⟨str "Bearer " ++ token.val, (encodable_str "Bearer ").append token.property⟩)

/-- A request of an agent, with what `urllib` and proxies add before and after its own header. -/
def agentMessage (method path : Str) (body : List ℕ) (token : Text) (before after : List (Str × Text)) : Message where
  method := method
  path := path
  query := []
  headers := before ++ bearerHeader token :: after
  body := body

/-- What is added has no token of its own. -/
def Anonymous (headers : List (Str × Text)) : Prop := ∀ h ∈ headers, lower (strip h.1) ≠ str "authorization"

instance (headers : List (Str × Text)) : Decidable (Anonymous headers) :=
  inferInstanceAs (Decidable (∀ h ∈ headers, _ ≠ _))

variable {token : Text} {before after : List (Str × Text)}

theorem trim_bearerHeader (h : IsWord token.val) : Message.trim (bearerHeader token).2 = (bearerHeader token).2 := by
  have hword : IsWord (str "Bearer") := by decide
  have hstrip : strip (str "Bearer" ++ str " " ++ token.val) = str "Bearer" ++ str " " ++ token.val :=
    stripBy_between hword.1 h.1 hword.2 h.2 _
  exact Subtype.ext hstrip

/-- The panel reads the token that was sent. -/
theorem bearer_agentMessage (h : IsWord token.val) (hanonymous : Anonymous (before ++ after)) (method path : Str)
    (body : List ℕ) : bearer (agentMessage method path body token before after).received = token := by
  have hget : Headers.get (agentMessage method path body token before after).received "authorization" =
      some (bearerHeader token).2 := by
    have hname : lower (strip (bearerHeader token).1) = str "authorization" :=
      (show lower (strip (str "Authorization")) = str "authorization" by decide)
    have hafter : ∀ x ∈ (after.map fun h => (lower (strip h.1), Message.trim h.2)).reverse,
        ¬ decide (x.1 = str "authorization") = true := by
      intro x hx
      obtain ⟨y, hy, rfl⟩ := List.mem_map.mp (List.mem_reverse.mp hx)
      simpa using hanonymous y (List.mem_append_right _ hy)
    rw [Headers.get, Message.received, agentMessage, List.map_append, List.map_cons, List.reverse_append,
      List.reverse_cons, List.append_assoc, List.find?_append, List.find?_eq_none.mpr hafter, Option.none_or,
      List.singleton_append, List.find?_cons_of_pos (by simpa using hname), Option.map_some, trim_bearerHeader h]
  have hauth : authHeader (agentMessage method path body token before after).received = (bearerHeader token).2 := by
    rw [authHeader, Headers.getText, hget, Option.getD_some, if_pos]
    exact List.append_ne_nil_of_left_ne_nil (by decide) _
  have hinfix : ¬ str "Bearer " <:+: token.val := fun hi => by
    have hspace := h.2 32 (hi.subset (by decide))
    exact absurd hspace (by decide)
  have hreplace : replace (str "Bearer ") [] (bearerHeader token).2.val = token.val := by
    rw [bearerHeader, replace_self_append (by decide), List.nil_append, replace_of_not_infix [] hinfix]
  have hstrip : strip token.val = token.val := stripBy_of_forall h.2
  refine Subtype.ext ?_
  show strip (replace (str "Bearer ") [] (authHeader _).val) = _
  rw [hauth, hreplace, hstrip]

theorem nodeToken_agentMessage (h : IsWord token.val) (hanonymous : Anonymous (before ++ after)) (method path : Str)
    (body : List ℕ) : nodeToken (agentMessage method path body token before after).received = some token := by
  rw [nodeToken, bearer_agentMessage h hanonymous, if_pos h.1]

/-- What is posted with `json.dumps(v).encode("utf-8")` is read again. -/
theorem readJson_posted {R : FloatReader} {v : Json} (h : Clean R v) :
    readJson R (encode (dumpsIn .spaced v)) = some v := by
  rw [(ascii_dumpsIn .spaced h.loaded).encode]
  exact loadsBytes_dumpsIn .spaced h.loaded h.sound

/-! ### The answer -/

section Answer

variable (repr : Json → Str) (exc : Str)

/-- The headers of a request that is routed to `/api/agent/sync`. -/
def askedSync : Handled → Option Headers
  | .routed method path _ headers _ => if dispatch method path = some .sync then some headers else none
  | _ => none

/-- `{"error": …}`. -/
def errorText (error : Str) : Str := dumpsIn .spaced (.dict [(str "error", .str error)])

/-- The bytes of an answer, where `exc` is what an exception shows. -/
def answerSync (db : Db) (headers : Headers) : List ℕ :=
  match syncText repr db ((nodeToken headers).getD (text "")) with
  | .ok answer => sendJson 200 answer
  | .error (.refused status error) => sendJson status (errorText error)
  | .error .raised => sendJson 500 (errorText exc)

end Answer

/-- `sync_tunnels`, up to `apply_configs`: what the agent takes from the bytes of an answer; `none` when an exception
is passed over. -/
def readSync (R : FloatReader) (bs : List ℕ) : Option (List Item × ℤ) :=
  (readResponse bs).bind fun r =>
    if 200 ≤ r.1 ∧ r.1 < 300 then (decodeStrict r.2).bind (readAnswer R) else none

/-- An answer, as the agent reads it. -/
def readAs (answer : List Panel.Entry × ℤ) : List Item × ℤ := (answer.1.map itemOf, answer.2)

variable {repr : Json → Str} {R : FloatReader} {db : Db}

/-- An error is passed over, however much of it arrives. -/
theorem readSync_error {status : ℕ} (hstatus : status = 401 ∨ status = 500) (data : Str) (k : ℕ) :
    readSync R ((sendJson status data).take k) = none := by
  have hlines : ∀ status ∈ [401, 500], ∀ line ∈ (statusLine status ++ [13]).inits, ∀ n ∈ statusOf line,
      ¬ (200 ≤ n ∧ n < 300) := by decide +kernel
  refine Option.bind_eq_none_iff.mpr fun r hread => if_neg ?_
  have hfirst := takeWhile_take_prefix (fun b => decide (b ≠ 10)) k (sendJson status data)
  rw [sendJson_eq, takeWhile_headText (notMem_statusLine status), ← sendJson_eq] at hfirst
  exact hlines status (by simpa using hstatus) _ ((List.mem_inits _ _).mpr hfirst) r.1 (statusOf_of_readResponse hread)

/-- What arrives in whole is read, and of the rest nothing. -/
theorem readSync_answer {es : List Panel.Entry} {nonce : ℤ} (h : Clean R (syncAnswer es nonce))
    (hlength : (natDigits (dumpsIn .spaced (syncAnswer es nonce)).length).length ≤ maxStrDigits) (k : ℕ) :
    readSync R ((sendJson 200 (dumpsIn .spaced (syncAnswer es nonce))).take k) =
      if (sendJson 200 (dumpsIn .spaced (syncAnswer es nonce))).length ≤ k then some (readAs (es, nonce)) else none := by
  have hascii := ascii_dumpsIn .spaced h.loaded
  have hbody : (natDigits (encode (dumpsIn .spaced (syncAnswer es nonce))).length).length ≤ maxStrDigits := by
    rw [hascii.encode]
    exact hlength
  have hok : 200 ≤ 200 ∧ 200 ≤ 999 ∧ 200 ≠ 204 ∧ 200 ≠ 304 := by decide
  rw [← bytes_jsonResponse hok _ hbody]
  split
  · rename_i hwhole
    rw [List.take_of_length_le hwhole, readSync, Response.readResponse_bytes, Option.bind_some]
    show (if (200 : ℤ) ≤ 200 ∧ (200 : ℤ) < 300 then (decodeStrict (encode _)).bind (readAnswer R) else none) = _
    rw [if_pos (by decide), decodeStrict_encode hascii.scalar, Option.bind_some, readAnswer_text h]
    rfl
  · rename_i hcut
    refine Option.bind_eq_none_iff.mpr fun r hread => ?_
    rw [Response.readResponse_take _ (Nat.lt_of_not_le hcut) hread]
    split <;> rfl

/-- The token is not known, or the panel raises. -/
theorem agentSync_error {e : Failure} (h : agentSync repr db token = .error e) :
    e = .refused 401 (str "unauthorized") ∨ e = .raised := by
  unfold agentSync at h
  split at h
  · cases h
    exact .inl rfl
  · rename_i node hnode
    cases hconfigs : syncConfigs repr db node db.listTunnels with
    | none =>
      rw [hconfigs] at h
      cases h
      exact .inr rfl
    | some es =>
      rw [hconfigs] at h
      cases h

/-- **A sync over HTTP**: whatever requests were made before, a request with a token is answered, and the agent takes
from the answer the items and the nonce that the panel finds for this token. If the connection is cut off, the token
is not known or the panel raises, it takes nothing. -/
theorem sync_over_http (hR : FloatPrints R) (hrepr : ReprPrints repr) {rs : List Request}
    (hrs : ∀ r ∈ rs, r.Received R) (hshort : rs.length < 2 ^ 63) (hrun : exec serve Db.empty rs = some db)
    (htoken : IsWord token.val) (hanonymous : Anonymous (before ++ after))
    (hplain : (agentMessage (str "GET") (str "/api/agent/sync") [] token before after).Plain)
    (hlength : ∀ answer, syncText repr db token = .ok answer → (natDigits answer.length).length ≤ maxStrDigits)
    (netlocOk : Str → Bool) (exc : Str) (more : List ℕ) :
    ∃ headers, askedSync (handleClient netlocOk
        ((agentMessage (str "GET") (str "/api/agent/sync") [] token before after).print ++ more)) = some headers ∧
      ∀ k, readSync R ((answerSync repr exc db headers).take k) =
        if (answerSync repr exc db headers).length ≤ k then (agentSync repr db token).toOption.map readAs else none := by
  refine ⟨(agentMessage (str "GET") (str "/api/agent/sync") [] token before after).received, ?_, fun k => ?_⟩
  · have hsmall : ¬ maxHttpBodyBytes < ([] : List ℕ).length := by decide
    have hsync : dispatch (str "GET") (str "/api/agent/sync") = some .sync := dispatch_request (e := .sync) trivial
    rw [handleClient_print netlocOk hplain, agentMessage, if_neg hsmall, askedSync, if_pos hsync]
  · have hasked : (nodeToken (agentMessage (str "GET") (str "/api/agent/sync") [] token before after).received).getD
        (text "") = token := by rw [nodeToken_agentMessage htoken hanonymous, Option.getD_some]
    rw [answerSync, hasked]
    cases hanswer : agentSync repr db token with
    | ok answer =>
      obtain ⟨es, nonce⟩ := answer
      have hclean : Clean R (syncAnswer es nonce) :=
        clean_syncAnswer hrepr (clean_exec hR hrs clean_empty hrun) hshort (counted_exec hrun) hanswer
      have htext := syncText_eq_ok hanswer
      simp only [htext]
      exact readSync_answer hclean (hlength _ htext) k
    | error e =>
      have htext : syncText repr db token = .error e := by
        rw [syncText, hanswer]
        rfl
      have hnone : (Except.error e : Except Failure (List Panel.Entry × ℤ)).toOption.map readAs = none := rfl
      rw [hnone, ite_self, htext]
      rcases agentSync_error hanswer with rfl | rfl
      · exact readSync_error (.inl rfl) _ k
      · exact readSync_error (.inr rfl) _ k

/-- The request of the example's agent. -/
def exampleMessage : Message :=
  agentMessage (str "GET") (str "/api/agent/sync") [] exampleToken [(str "Host", text "panel")] []

theorem exampleMessage_plain : exampleMessage.Plain := by decide +kernel

/-- Its tunnel is in the answer that it reads. -/
theorem accentedTunnel_sent : ∃ db headers, exec serve Db.empty accentedTunnel = some db ∧
    askedSync (handleClient (fun _ => true) (exampleMessage.print ++ [])) = some headers ∧
      ∀ k, readSync Settings.verbatim ((answerSync (fun _ => []) [] db headers).take k) =
        if (answerSync (fun _ => []) [] db headers).length ≤ k then
          (agentSync (fun _ => []) db exampleToken).toOption.map readAs
        else none := by
  obtain ⟨db, hrun, hanswer⟩ : ∃ db, exec serve Db.empty accentedTunnel = some db ∧
      (syncText (fun _ => []) db exampleToken).toOption.all (fun answer =>
        decide ((natDigits answer.length).length ≤ maxStrDigits)) = true := exists_of_any (by decide +kernel)
  have hlength : ∀ answer, syncText (fun _ => []) db exampleToken = .ok answer →
      (natDigits answer.length).length ≤ maxStrDigits := by
    intro answer h
    rw [h] at hanswer
    exact of_decide_eq_true hanswer
  obtain ⟨headers, hasked, hread⟩ := sync_over_http floatPrints_verbatim reprPrints_nil accentedTunnel_received (by decide)
    hrun (by decide +kernel) (by decide +kernel) exampleMessage_plain hlength (fun _ => true) [] []
  exact ⟨db, headers, hrun, hasked, hread⟩

end Hawal.Fleet
