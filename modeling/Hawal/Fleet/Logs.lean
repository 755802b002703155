import Hawal.Fleet.Http
import Mathlib.Data.List.DropRight

/-!
# Logs over HTTP

An agent reports the ends of its log files, a dashboard clears what it has selected, and both are connections whose
bytes the panel reads.

* `reportLogs` — what an agent reports.
* `logs_over_http` — after any connections of agents and dashboards, what is shown for a selection is what was reported
  last and not cleared since, whole, but for reports that are too large.
-/

namespace Hawal.Fleet

open Hawal.Lib Hawal.Lib.Python Hawal.Panel Hawal.Panel.Http

/-! ### What is sent -/

/-- `f.read().decode("utf-8", errors="replace")`, from 12000 bytes before the end of a file. -/
def fileEnd (bytes : List ℕ) : Text :=
  ⟨decode [0xFFFD] (bytes.rtake 12000), encodable_decode (by decide) _⟩

/-- `report_logs`: the snapshots, of the output of `journalctl` and of the files of the running tunnels. -/
def reportLogs (output : Text) (files : List (Text × List ℕ)) : List (Text × Text) :=
  (text "agent", ⟨output.val.rtake 12000, encodable_infix output.property (List.drop_suffix _ _).isInfix⟩) ::
    files.map fun f => (⟨str "tunnel:" ++ f.1.val, (encodable_str "tunnel:").append f.1.property⟩, fileEnd f.2)

/-- `{"snapshots": snapshots}`. -/
def reportJson (texts : List (Text × Text)) : Json :=
  .dict [(str "snapshots", .dict (texts.map fun p => (p.1.val, .str p.2.val)))]

/-- `json.dumps(…).encode("utf-8")`. -/
def reportBody (texts : List (Text × Text)) : List ℕ := encode (dumpsIn .spaced (reportJson texts))

/-- The parameters of `clearVisibleLogs`: what is empty is not set. -/
def logParams (node source : Str) : Query :=
  (if node = [] then [] else [(str "node_id", node)]) ++ if source = [] then [] else [(str "source", source)]

/-- A connection that is about logs. -/
inductive LogConnection where
  /-- Of an agent, with what `urllib` and proxies add to its token. -/
  | report (token output : Text) (files : List (Text × List ℕ)) (before after : List (Str × Text))
  /-- Of a dashboard, for what is selected in it. -/
  | clear (node source : Str) (headers : List (Str × Text))

namespace LogConnection

/-- The request. -/
def message : LogConnection → Message
  | report token output files before after =>
    agentMessage (str "POST") (str "/api/agent/logs") (reportBody (reportLogs output files)) token before after
  | clear node source headers => ⟨str "DELETE", str "/api/logs", urlencode (logParams node source), headers, []⟩

/-- What is sent is text, and no two files are of one tunnel. Without a selection a browser ends the target with a
question mark, which a `Message` cannot do. -/
def Textual : LogConnection → Prop
  | report token output files before after =>
    IsWord token.val ∧ Anonymous (before ++ after) ∧ Unicode output.val ∧ (files.map Prod.fst).Nodup ∧
      ∀ f ∈ files, Unicode f.1.val
  | clear node source _ => (node ≠ [] ∨ source ≠ []) ∧ (∀ c ∈ node, Scalar c) ∧ ∀ c ∈ source, Scalar c

instance : ∀ c : LogConnection, Decidable c.Textual
  | report .. => inferInstanceAs (Decidable (_ ∧ _))
  | clear .. => inferInstanceAs (Decidable (_ ∧ _))

/-- What it means: the texts are those of the node with the token, and a report that is too large is lost. -/
def event (db : Db) (now : ℕ) : LogConnection → Option LogEvent
  | report token output files _ _ =>
    if maxHttpBodyBytes < (reportBody (reportLogs output files)).length then none
    else (db.getNodeByToken token).map fun n => .saved n.id now (reportLogs output files)
  | clear node source _ => some (.cleared ⟨orNone node, orNone source⟩)

end LogConnection

/-! ### A report -/

theorem length_rtake_le (xs : List ℕ) (n : ℕ) : (xs.rtake n).length ≤ n := by
  rw [List.rtake, List.length_drop]
  omega

theorem mem_of_mem_rtake {xs : List ℕ} {n c : ℕ} (h : c ∈ xs.rtake n) : c ∈ xs := (List.drop_suffix _ xs).subset h

theorem scalar_bad : ∀ c ∈ [0xFFFD], Scalar c := by decide

theorem length_decode_rtake (bytes : List ℕ) (n : ℕ) : (decode [0xFFFD] (bytes.rtake n)).length ≤ n :=
  (length_decode_le (List.length_singleton (a := 0xFFFD)).le _).trans (length_rtake_le bytes n)

variable {output : Text} {files : List (Text × List ℕ)} {p : Text × Text}

theorem mem_reportLogs : p ∈ reportLogs output files ↔
    p.1 = text "agent" ∧ p.2.val = output.val.rtake 12000 ∨
      ∃ f ∈ files, p.1.val = str "tunnel:" ++ f.1.val ∧ p.2.val = decode [0xFFFD] (f.2.rtake 12000) := by
  simp only [reportLogs, List.mem_cons, List.mem_map, Prod.ext_iff, Subtype.ext_iff, fileEnd, eq_comm]

/-- The panel keeps the texts whole. -/
theorem length_of_mem_reportLogs (h : p ∈ reportLogs output files) : p.2.val.length ≤ 12000 := by
  rcases mem_reportLogs.mp h with ⟨-, htext⟩ | ⟨f, -, -, htext⟩
  · rw [htext]
    exact length_rtake_le output.val 12000
  · rw [htext]
    exact length_decode_rtake f.2 12000

theorem unicode_of_mem_reportLogs (houtput : Unicode output.val) (hfiles : ∀ f ∈ files, Unicode f.1.val)
    (h : p ∈ reportLogs output files) : Unicode p.1.val ∧ Unicode p.2.val := by
  have hname : ∀ s ∈ ["agent", "tunnel:"], Unicode (str s) := by decide
  rcases mem_reportLogs.mp h with ⟨hsource, htext⟩ | ⟨f, hf, hsource, htext⟩
  · rw [hsource, htext]
    exact ⟨hname "agent" (by simp), fun c hc => houtput c (mem_of_mem_rtake hc)⟩
  · rw [hsource, htext]
    exact ⟨List.forall_mem_append.mpr ⟨hname "tunnel:" (by simp), hfiles f hf⟩, unicode_decode scalar_bad _⟩

theorem nodup_reportLogs (hfiles : (files.map Prod.fst).Nodup) :
    ((reportLogs output files).map fun p => p.1.val).Nodup := by
  rw [reportLogs, List.map_cons, List.nodup_cons, List.map_map]
  constructor
  · intro h
    obtain ⟨f, -, hf⟩ := List.mem_map.mp h
    have hprefix : str "tunnel:" <+: str "agent" := ⟨f.1.val, hf⟩
    exact absurd hprefix (by decide)
  · have hinjective : Function.Injective fun t : Text => str "tunnel:" ++ t.val :=
      fun t u h => Subtype.ext (List.append_cancel_left h)
    have hids := hfiles.map hinjective
    rw [List.map_map] at hids
    exact hids

/-- The report can be written. -/
theorem clean_reportJson (R : FloatReader) (houtput : Unicode output.val) (hfiles : (files.map Prod.fst).Nodup)
    (hids : ∀ f ∈ files, Unicode f.1.val) : Clean R (reportJson (reportLogs output files)) := by
  have hkey : Sound (str "snapshots") := sound_of_encodable (unicode_str _) (encodable_str _)
  refine clean_dict (List.nodup_singleton _) (List.forall_mem_singleton.mpr ⟨hkey, clean_dict ?_ fun f hf => ?_⟩)
  · rw [List.map_map]
    exact nodup_reportLogs hfiles
  · obtain ⟨p, hp, rfl⟩ := List.mem_map.mp hf
    obtain ⟨hsource, htext⟩ := unicode_of_mem_reportLogs houtput hids hp
    exact ⟨sound_of_encodable hsource p.1.property, clean_text htext p.2.property⟩

variable (repr : Json → Str)

theorem snapshotText_of_short (h : p.2.val.length ≤ 12000) : snapshotText repr (p.1.val, .str p.2.val) = some p := by
  have hwhole : p.2.val.length - 24000 = 0 := by omega
  simp [snapshotText, Json.shown, hwhole, Json.bindTextNotNull, Json.bindText, p.1.property, p.2.property]

theorem mapM_snapshotText {texts : List (Text × Text)} (h : ∀ p ∈ texts, p.2.val.length ≤ 12000) :
    (texts.map fun p => (p.1.val, Json.str p.2.val)).mapM (snapshotText repr) = some texts := by
  induction texts with
  | nil => rfl
  | cons p texts ih =>
    rw [List.forall_mem_cons] at h
    rw [List.map_cons, List.mapM_cons, snapshotText_of_short repr h.1, ih h.2]
    rfl

/-- What the panel takes from a report. -/
theorem report_reportJson (s : Store) (headers : Headers) (now : ℕ) {texts : List (Text × Text)}
    (h : ∀ p ∈ texts, p.2.val.length ≤ 12000) :
    s.report repr headers now (some (reportJson texts)) =
      (s.db.getNodeByToken (bearer headers)).map fun n => .saved n.id now texts := by
  have htexts := mapM_snapshotText repr h
  cases hnode : s.db.getNodeByToken (bearer headers) with
  | none => simp [Store.report, hnode]
  | some node => simp [Store.report, hnode, reportJson, Json.fields?, Fields.get, htexts]

/-- A report changes nothing but the logs. -/
theorem db_serve_logs (s : Store) (headers : Headers) (now : ℕ) (body : Option Json) :
    (s.serve repr (.logs headers now body)).db = s.db := by
  rcases saveLogs_cases s headers now body with ⟨e, -, hsave⟩ | ⟨e, logs, -, hsave, -⟩
  · rw [Store.serve, hsave]
  · rw [Store.serve, hsave]

/-! ### A selection -/

/-- What is selected arrives. -/
theorem wanted_logParams {node source : Str} (hnode : ∀ c ∈ node, Scalar c) (hsource : ∀ c ∈ source, Scalar c) :
    wanted (parseQsl (urlencode (logParams node source))) = ⟨orNone node, orNone source⟩ := by
  have hname : ∀ s ∈ ["node_id", "source"], ∀ c ∈ str s, Scalar c := by decide
  have hsendable : ∀ p ∈ logParams node source, Sendable p := by
    intro p hp
    rcases List.mem_append.mp hp with hp | hp
    · split at hp
      · cases hp
      · rename_i hne
        cases List.mem_singleton.mp hp
        exact ⟨hname _ (by simp), hnode, hne⟩
    · split at hp
      · cases hp
      · rename_i hne
        cases List.mem_singleton.mp hp
        exact ⟨hname _ (by simp), hsource, hne⟩
  rw [parseQsl_urlencode hsendable]
  by_cases hnode : node = [] <;> by_cases hsource : source = [] <;>
    simp [wanted, logParams, orNone, Query.first, Dict.get, str_inj, hnode, hsource]

/-! ### Connections -/

section Connections

variable (R : FloatReader) (netlocOk : Str → Bool)

/-- The state after connections, each with what is drawn for it and with the bytes that follow the request. -/
def logConnections (s : Store) (cs : List (Draws × LogConnection × List ℕ)) : Store :=
  cs.foldl (fun s c => s.connect repr R netlocOk c.1 (c.2.1.message.print ++ c.2.2)) s

/-- What the connections mean. -/
def logEvents (db : Db) (cs : List (Draws × LogConnection × List ℕ)) : List LogEvent :=
  cs.filterMap fun c => c.2.1.event db c.1.now

variable (s : Store) (env : Draws) {c : LogConnection}

open LogConnection

/-- The request that a connection makes. -/
theorem connect_message (hc : c.Textual) (hplain : c.message.Plain) (more : List ℕ) :
    s.connect repr R netlocOk env (c.message.print ++ more) = s ∧ c.event s.db env.now = none ∨
      ∃ r, s.connect repr R netlocOk env (c.message.print ++ more) = s.next repr r ∧
        s.logEvent repr r = c.event s.db env.now ∧ (s.next repr r).db = s.db := by
  cases c with
  | clear node source headers =>
    obtain ⟨-, hnode, hsource⟩ := hc
    refine .inr ⟨.clearLogs (parseQsl (urlencode (logParams node source))), ?_, ?_, rfl⟩
    · have hsmall : ¬ maxHttpBodyBytes < (clear node source headers).message.body.length := Nat.not_lt_zero _
      rw [connect_print repr R netlocOk s env (e := .clearLogs) trivial hplain rfl more, if_neg hsmall]
      rfl
    · rw [Store.logEvent, wanted_logParams hnode hsource]
      rfl
  | report token output files before after =>
    obtain ⟨htoken, hanonymous, houtput, hfiles, hids⟩ := hc
    have hbody : (report token output files before after).message.body = reportBody (reportLogs output files) := rfl
    have hconnect := connect_print repr R netlocOk s env (e := .agentLogs) trivial hplain rfl more
    rw [hbody] at hconnect
    by_cases hlarge : maxHttpBodyBytes < (reportBody (reportLogs output files)).length
    · -- status 413, before the token is looked at
      rw [if_pos hlarge] at hconnect
      exact .inl ⟨hconnect, by rw [event, if_pos hlarge]⟩
    · rw [if_neg hlarge] at hconnect
      refine .inr ⟨.agent (.logs (report token output files before after).message.received env.now
        (readJson R (reportBody (reportLogs output files)))), hconnect, ?_, db_serve_logs repr s _ _ _⟩
      show s.report repr _ env.now (readJson R (reportBody (reportLogs output files))) = _
      rw [reportBody, readJson_posted (clean_reportJson R houtput hfiles hids),
        report_reportJson repr s _ _ fun p => length_of_mem_reportLogs, message, bearer_agentMessage htoken hanonymous,
        event, if_neg hlarge]

variable {repr R netlocOk s} {cs : List (Draws × LogConnection × List ℕ)}

/-- Connections leave nodes and tunnels alone, and the logs are what they mean. -/
theorem stored_logConnections (key : Text × Text) : ∀ {cs : List (Draws × LogConnection × List ℕ)} (s : Store),
    (∀ c ∈ cs, c.2.1.Textual ∧ c.2.1.message.Plain) →
    stored (logConnections repr R netlocOk s cs).logs key =
      (logEvents s.db cs).foldl (LogEvent.onto key) (stored s.logs key) := by
  intro cs
  induction cs with
  | nil => exact fun s _ => rfl
  | cons c cs ih =>
    intro s h
    rw [List.forall_mem_cons] at h
    obtain ⟨hc, hcs⟩ := h
    rw [logConnections, List.foldl_cons, ← logConnections, logEvents, List.filterMap_cons, ih _ hcs]
    rcases connect_message repr R netlocOk s c.1 hc.1 hc.2 c.2.2 with ⟨hconnect, hevent⟩ | ⟨r, hconnect, hevent, hdb⟩
    · rw [hconnect, hevent]
      rfl
    · -- the nodes stay, so that a token means the same node in all of the run
      rw [hconnect, hdb, stored_next, hevent]
      cases c.2.1.event s.db c.1.now <;> rfl

/-- **Logs over HTTP**: after any connections of agents and dashboards, the answer to a selection has a row for each
node and source that it selects and of which a text was reported and not cleared since. The row has what the agent
reported last, whole, and its time. Reports with an unknown token or with more than 1 MiB leave the logs as they
are. -/
theorem logs_over_http (hcs : ∀ c ∈ cs, c.2.1.Textual ∧ c.2.1.message.Plain) {node source : Str}
    (hnode : ∀ c ∈ node, Scalar c) (hsource : ∀ c ∈ source, Scalar c) (r : LogSnapshot) :
    r ∈ getLogSnapshots (logConnections repr R netlocOk s cs).logs
        (wanted (parseQsl (urlencode (logParams node source)))) ↔
      Wanted.Selects ⟨orNone node, orNone source⟩ r.key ∧
        (logEvents s.db cs).foldl (LogEvent.onto r.key) (stored s.logs r.key) = some (r.content, r.updatedAt) := by
  rw [mem_getLogSnapshots, wanted_logParams hnode hsource, stored_logConnections r.key s hcs]

end Connections

/-- A report of a file that ends within a character, and a dashboard that clears the logs of another node. -/
def reportAndClear : List (Draws × LogConnection × List ℕ) :=
  [(exampleDraws, .report exampleToken (text "é") [(text "tun_00000001", [0xC3, 0xA9, 0xC3])]
      [(str "Host", text "panel"), (str "Content-Length", text "73")] [], []),
    (exampleDraws, .clear (str "node_00000002") [] [(str "Host", text "panel")], [])]

theorem reportAndClear_textual : ∀ c ∈ reportAndClear, c.2.1.Textual ∧ c.2.1.message.Plain := by decide +kernel

/-- What is shown of it. -/
def reportedRow : LogSnapshot := ⟨text "node_00000001", text "tunnel:tun_00000001", text "é\uFFFD", 0⟩

theorem reportAndClear_shown : ∃ db, exec serve Db.empty accentedTunnel = some db ∧
    reportedRow ∈ getLogSnapshots (logConnections (fun _ => []) Settings.verbatim (fun _ => true)
      { Store.empty with db := db } reportAndClear).logs
        (wanted (parseQsl (urlencode (logParams (str "node_00000001") [])))) := by
  obtain ⟨db, hrun, hmeant⟩ : ∃ db, exec serve Db.empty accentedTunnel = some db ∧
      decide ((logEvents db reportAndClear).foldl (LogEvent.onto reportedRow.key) none =
        some (reportedRow.content, reportedRow.updatedAt)) = true := exists_of_any (by decide +kernel)
  have hselects : Wanted.Selects ⟨orNone (str "node_00000001"), orNone []⟩ reportedRow.key := by decide +kernel
  exact ⟨db, hrun, (logs_over_http reportAndClear_textual (by decide +kernel) (by decide) reportedRow).mpr
    ⟨hselects, of_decide_eq_true hmeant⟩⟩

end Hawal.Fleet
