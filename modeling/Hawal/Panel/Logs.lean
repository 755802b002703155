import Hawal.Lib.Url
import Hawal.Panel.Isolation

/-!
# What the panel shows of the logs

`log_snapshots` keeps one text for each node and source. Agents report texts, the dashboard asks for those that it
selects and clears them, and requests for nodes and tunnels leave them alone, even when they delete the node.

* `getLogSnapshots`, `deleteLogSnapshots` — `GET` and `DELETE /api/logs`.
* `Store.next` — a request of any kind, from an agent or from the dashboard.
* `logs_shown` — after any requests, what is shown for a node and a source is the end of the text that was reported
  last, if it was not cleared since.
-/

namespace Hawal.Panel

open Hawal.Lib Hawal.Lib.Python

/-! ### The statements -/

/-- The rows that a request is about; `none` for a parameter that is missing or empty. -/
structure Wanted where
  nodeId : Option Str
  source : Option Str

/-- `s or None`. -/
def orNone (s : Str) : Option Str := if s = [] then none else some s

/-- The parameters of the request. -/
def wanted (query : Query) : Wanted :=
  ⟨orNone (query.first (str "node_id") []), orNone (query.first (str "source") [])⟩

/-- The `WHERE` clause. -/
def Wanted.Selects (w : Wanted) (key : Text × Text) : Prop :=
  (∀ id ∈ w.nodeId, key.1.val = id) ∧ ∀ source ∈ w.source, key.2.val = source

instance (w : Wanted) (key : Text × Text) : Decidable (w.Selects key) := inferInstanceAs (Decidable (_ ∧ _))

/-- `get_log_snapshots`: the newest first. Rows of one time may also come in another order. -/
def getLogSnapshots (logs : Table LogSnapshot.key) (w : Wanted) : List LogSnapshot :=
  (logs.rows.filter fun r => decide (w.Selects r.key)).mergeSort fun a b => decide (b.updatedAt ≤ a.updatedAt)

/-- `delete_log_snapshots`: how many there were, and what is left. -/
def deleteLogSnapshots (logs : Table LogSnapshot.key) (w : Wanted) : ℕ × Table LogSnapshot.key :=
  ((logs.rows.filter fun r => decide (w.Selects r.key)).length,
    { rows := logs.rows.filter fun r => decide (¬ w.Selects r.key)
      nodup := logs.nodup.sublist (List.filter_sublist.map LogSnapshot.key) })

section Requests

variable (repr : Json → Str)

/-- A request of any kind. -/
inductive PanelRequest where
  | agent (r : AgentRequest)
  /-- For nodes and tunnels. -/
  | admin (r : Request)
  /-- `DELETE /api/logs`. -/
  | clearLogs (query : Query)

/-- The state after a request. -/
def Store.next (s : Store) : PanelRequest → Store
  | .agent r => s.serve repr r
  | .admin r => { s with db := (route s.db r).2 }
  | .clearLogs query => { s with logs := (deleteLogSnapshots s.logs (wanted query)).2 }

/-- The state after requests. -/
def Store.after (s : Store) (rs : List PanelRequest) : Store := rs.foldl (Store.next repr) s

/-! ### What is meant -/

/-- The text of a snapshot that is stored: its end. -/
def snapshotText (snapshot : Str × Json) : Option (Text × Text) := do
  let shown := snapshot.2.shown repr
  let source ← (Json.str snapshot.1).bindTextNotNull
  let content ← (Json.str (shown.drop (shown.length - 24000))).bindTextNotNull
  some (source, content)

/-- What happens to the logs. -/
inductive LogEvent where
  /-- A node's texts, by their sources. -/
  | saved (nodeId : Text) (now : ℕ) (texts : List (Text × Text))
  | cleared (w : Wanted)

/-- What a report says, when it is accepted: its token is that of a node, and all of its texts can be stored. -/
def Store.report (s : Store) (headers : Headers) (now : ℕ) (body : Option Json) : Option LogEvent := do
  let node ← s.db.getNodeByToken (bearer headers)
  let payload ← body.bind Json.fields?
  let snapshots ← (payload.get "snapshots" (.dict [])).fields?
  let texts ← snapshots.mapM (snapshotText repr)
  some (.saved node.id now texts)

/-- What a request means for the logs. -/
def Store.logEvent (s : Store) : PanelRequest → Option LogEvent
  | .agent (.logs headers now body) => s.report repr headers now body
  | .clearLogs query => some (.cleared (wanted query))
  | _ => none

/-- What happened to the logs. -/
def Store.events (s : Store) : List PanelRequest → List LogEvent
  | [] => []
  | r :: rs => (s.logEvent repr r).toList ++ (s.next repr r).events rs

end Requests

/-- The last text of a source. -/
def lastText (texts : List (Text × Text)) (source : Text) : Option Text :=
  (texts.filter fun p => decide (p.1 = source)).getLast?.map Prod.snd

/-- The text and the time of a node and a source, after what happens. -/
def LogEvent.onto (key : Text × Text) (old : Option (Text × ℕ)) : LogEvent → Option (Text × ℕ)
  | .saved nodeId now texts =>
    if nodeId = key.1 then ((lastText texts key.2).map fun content => (content, now)).or old else old
  | .cleared w => if w.Selects key then none else old

/-- The text and the time of a node and a source. -/
def history (events : List LogEvent) (key : Text × Text) : Option (Text × ℕ) :=
  events.foldl (LogEvent.onto key) none

variable {repr : Json → Str} {logs logs' : Table LogSnapshot.key} {key : Text × Text}

/-- The text and the time that are stored. -/
def stored (logs : Table LogSnapshot.key) (key : Text × Text) : Option (Text × ℕ) :=
  (logs.find key).map fun r => (r.content, r.updatedAt)

/-- The rows of an answer. -/
theorem mem_getLogSnapshots {w : Wanted} {r : LogSnapshot} :
    r ∈ getLogSnapshots logs w ↔ w.Selects r.key ∧ stored logs r.key = some (r.content, r.updatedAt) := by
  rw [getLogSnapshots, (List.mergeSort_perm _ _).mem_iff, List.mem_filter, decide_eq_true_eq, and_comm]
  refine and_congr_right fun _ => ?_
  rw [stored, Option.map_eq_some_iff]
  constructor
  · exact fun hr => ⟨r, Table.find_eq_some.mpr ⟨hr, rfl⟩, rfl⟩
  · rintro ⟨r', hr', hrow⟩
    obtain ⟨hmem, hkey⟩ := Table.find_eq_some.mp hr'
    have heq : r' = r := by
      obtain ⟨nodeId', source', content', updatedAt'⟩ := r'
      obtain ⟨nodeId, source, content, updatedAt⟩ := r
      simp only [LogSnapshot.key, Prod.mk.injEq] at hkey hrow
      obtain ⟨rfl, rfl⟩ := hkey
      obtain ⟨rfl, rfl⟩ := hrow
      rfl
    exact heq ▸ hmem

/-! ### One request -/

theorem newSnapshot_eq (nodeId : Text) (now : ℕ) (source : Str) (content : Json) :
    newSnapshot repr nodeId now source content =
      (snapshotText repr (source, content)).map fun p => ⟨nodeId, p.1, p.2, now⟩ := by
  simp only [newSnapshot, snapshotText, Option.bind_eq_bind]
  cases (Json.str source).bindTextNotNull with
  | none => rfl
  | some source =>
    rw [Option.bind_some, Option.bind_some]
    cases (Json.str ((content.shown repr).drop ((content.shown repr).length - 24000))).bindTextNotNull <;> rfl

theorem stored_upsert (nodeId source content : Text) (now : ℕ) (key : Text × Text) :
    stored (logs.upsert ⟨nodeId, source, content, now⟩ (mergeSnapshot ⟨nodeId, source, content, now⟩) fun _ => rfl) key =
      if nodeId = key.1 ∧ source = key.2 then some (content, now) else stored logs key := by
  have hkey : ∀ r, LogSnapshot.key (mergeSnapshot ⟨nodeId, source, content, now⟩ r) = r.key := fun _ => rfl
  have hfind : (logs.upsert ⟨nodeId, source, content, now⟩ _ hkey).find key = _ := Table.find_upsert key
  have hrow : LogSnapshot.key ⟨nodeId, source, content, now⟩ = key ↔ nodeId = key.1 ∧ source = key.2 := Prod.ext_iff
  unfold stored
  refine (congrArg (Option.map _) hfind).trans ?_
  by_cases h : nodeId = key.1 ∧ source = key.2
  · rw [if_pos h, if_pos (hrow.mpr h)]
    cases logs.find key <;> rfl
  · rw [if_neg h, if_neg (mt hrow.mp h)]

theorem lastText_cons (p : Text × Text) (texts : List (Text × Text)) (source : Text) :
    lastText (p :: texts) source = (lastText texts source).or (if p.1 = source then some p.2 else none) := by
  unfold lastText
  rw [List.filter_cons]
  by_cases hp : p.1 = source
  · rw [if_pos (decide_eq_true hp), if_pos hp, List.getLast?_cons]
    cases (texts.filter fun p => decide (p.1 = source)).getLast? <;> rfl
  · rw [if_neg (by simpa using hp), if_neg hp, Option.or_none]

/-- The last text of a source counts. -/
theorem stored_saveLogSnapshots (nodeId : Text) (now : ℕ) : ∀ {snapshots : Fields} (logs : Table LogSnapshot.key)
    {texts : List (Text × Text)}, snapshots.mapM (snapshotText repr) = some texts →
    ∃ logs', saveLogSnapshots repr logs nodeId now snapshots = some logs' ∧
      ∀ key, stored logs' key = (LogEvent.saved nodeId now texts).onto key (stored logs key) := by
  intro snapshots
  induction snapshots with
  | nil =>
    intro logs texts h
    cases h
    refine ⟨logs, rfl, fun key => ?_⟩
    simp [LogEvent.onto, lastText]
  | cons snapshot snapshots ih =>
    intro logs texts h
    rw [List.mapM_cons] at h
    obtain ⟨p, hp, h⟩ := Option.bind_eq_some_iff.mp h
    obtain ⟨rest, hrest, h⟩ := Option.bind_eq_some_iff.mp h
    cases h
    have hnew : newSnapshot repr nodeId now snapshot.1 snapshot.2 = some ⟨nodeId, p.1, p.2, now⟩ := by
      rw [newSnapshot_eq]
      exact congrArg (Option.map _) hp
    obtain ⟨logs', hsave, hstored⟩ := ih _ hrest
    refine ⟨logs', by rw [saveLogSnapshots, hnew]; exact hsave, fun key => ?_⟩
    rw [hstored, stored_upsert]
    simp only [LogEvent.onto, lastText_cons]
    by_cases hnode : nodeId = key.1
    · rw [if_pos hnode, if_pos hnode]
      by_cases hsource : p.1 = key.2
      · rw [if_pos ⟨hnode, hsource⟩, if_pos hsource]
        cases lastText rest key.2 <;> rfl
      · rw [if_neg fun h => hsource h.2, if_neg hsource, Option.or_none]
    · rw [if_neg hnode, if_neg hnode, if_neg fun h => hnode h.1]

theorem saveLogSnapshots_eq_none {nodeId : Text} {now : ℕ} : ∀ {snapshots : Fields} {logs : Table LogSnapshot.key},
    snapshots.mapM (snapshotText repr) = none → saveLogSnapshots repr logs nodeId now snapshots = none := by
  intro snapshots
  induction snapshots with
  | nil => exact fun h => nomatch h
  | cons snapshot snapshots ih =>
    intro logs h
    rw [saveLogSnapshots, newSnapshot_eq]
    rw [List.mapM_cons] at h
    cases hp : snapshotText repr snapshot with
    | none => rfl
    | some p =>
      rw [hp] at h
      cases hrest : snapshots.mapM (snapshotText repr) with
      | none => exact ih hrest
      | some rest =>
        rw [hrest] at h
        cases h

/-- Clearing. -/
theorem stored_deleteLogSnapshots (w : Wanted) (key : Text × Text) :
    stored (deleteLogSnapshots logs w).2 key = (LogEvent.cleared w).onto key (stored logs key) := by
  have hfind : (deleteLogSnapshots logs w).2.find key = if w.Selects key then none else logs.find key := by
    ext r
    have hmem : r ∈ (deleteLogSnapshots logs w).2 ↔ r ∈ logs ∧ ¬ w.Selects r.key := by
      show r ∈ logs.rows.filter _ ↔ _
      rw [List.mem_filter, decide_eq_true_eq, Table.mem_rows]
    rw [Table.find_eq_some, hmem]
    by_cases hw : w.Selects key
    · rw [if_pos hw]
      constructor
      · rintro ⟨⟨-, hnot⟩, rfl⟩
        exact absurd hw hnot
      · exact fun h => nomatch h
    · rw [if_neg hw, Table.find_eq_some]
      constructor
      · rintro ⟨⟨hr, -⟩, hk⟩
        exact ⟨hr, hk⟩
      · rintro ⟨hr, rfl⟩
        exact ⟨⟨hr, hw⟩, rfl⟩
  rw [stored, hfind, LogEvent.onto]
  split
  · rfl
  · rfl

/-- What a report does. -/
theorem saveLogs_cases (s : Store) (headers : Headers) (now : ℕ) (body : Option Json) :
    (∃ e, s.report repr headers now body = none ∧ s.saveLogs repr headers now body = .error e) ∨
      ∃ e logs', s.report repr headers now body = some e ∧
        s.saveLogs repr headers now body = .ok { s with logs := logs' } ∧
        ∀ key, stored logs' key = e.onto key (stored s.logs key) := by
  cases hnode : s.db.getNodeByToken (bearer headers) with
  | none =>
    exact .inl ⟨.refused 401 (str "unauthorized"), by simp [Store.report, hnode], by simp only [Store.saveLogs, hnode]⟩
  | some node =>
    cases hpayload : body.bind Json.fields? with
    | none =>
      have hread : readBody body = .error .raised := by rw [readBody, hpayload]; rfl
      exact .inl ⟨_, by simp [Store.report, hnode, hpayload], by simp only [Store.saveLogs, hnode, hread]; rfl⟩
    | some payload =>
      have hread : readBody body = .ok payload := by rw [readBody, hpayload]; rfl
      cases hsnapshots : (payload.get "snapshots" (.dict [])).fields? with
      | none =>
        refine .inl ⟨.refused 400 (str "invalid snapshots"), by simp [Store.report, hnode, hpayload, hsnapshots], ?_⟩
        simp only [Store.saveLogs, hnode, hread, bind, Except.bind, hsnapshots]
      | some snapshots =>
        cases htexts : snapshots.mapM (snapshotText repr) with
        | none =>
          refine .inl ⟨.raised, by simp [Store.report, hnode, hpayload, hsnapshots, htexts], ?_⟩
          simp only [Store.saveLogs, hnode, hread, bind, Except.bind, hsnapshots, saveLogSnapshots_eq_none htexts]
          rfl
        | some texts =>
          obtain ⟨logs', hsave, hstored⟩ := stored_saveLogSnapshots node.id now s.logs htexts
          refine .inr ⟨_, logs', by simp [Store.report, hnode, hpayload, hsnapshots, htexts], ?_, hstored⟩
          simp only [Store.saveLogs, hnode, hread, bind, Except.bind, hsnapshots, hsave]
          rfl

/-- What a request does to the logs. -/
theorem stored_next (s : Store) (r : PanelRequest) (key : Text × Text) :
    stored (s.next repr r).logs key = (s.logEvent repr r).toList.foldl (LogEvent.onto key) (stored s.logs key) := by
  cases r with
  | admin r => rfl
  | clearLogs query => exact stored_deleteLogSnapshots (wanted query) key
  | agent r =>
    cases r with
    | heartbeat headers peer now body =>
      show stored (s.serve repr (.heartbeat headers peer now body)).logs key = stored s.logs key
      rw [Store.serve]
      split
      · rename_i s' h
        obtain ⟨n, ip, load, -, rfl⟩ := heartbeat_eq_ok_of_node h
        rfl
      · rfl
    | sync headers => rfl
    | traffic headers body => rfl
    | logs headers now body =>
      show stored (s.serve repr (.logs headers now body)).logs key =
        (s.report repr headers now body).toList.foldl (LogEvent.onto key) (stored s.logs key)
      rw [Store.serve]
      rcases saveLogs_cases s headers now body with ⟨e, hreport, hsave⟩ | ⟨e, logs', hreport, hsave, hstored⟩
      · rw [hreport, hsave]
        rfl
      · rw [hreport, hsave]
        exact hstored key

/-! ### All of them -/

theorem stored_after : ∀ (rs : List PanelRequest) (s : Store) (key : Text × Text),
    stored (s.after repr rs).logs key = (s.events repr rs).foldl (LogEvent.onto key) (stored s.logs key) := by
  intro rs
  induction rs with
  | nil => exact fun s key => rfl
  | cons r rs ih =>
    intro s key
    rw [Store.events, List.foldl_append, ← stored_next]
    exact ih (s.next repr r) key

/-- The panel before any request. -/
def Store.empty : Store := ⟨Db.empty, fun _ => none, Table.empty⟩

/-- **What is shown of the logs**: after any requests from agents and from the dashboard, the answer to a selection
has one row for each node and source that it selects and of which a text was reported and not cleared since. The row
has the end of the text that was reported last and its time, and the newest rows come first. -/
theorem logs_shown (repr : Json → Str) (rs : List PanelRequest) (query : Query) :
    (∀ r, r ∈ getLogSnapshots (Store.empty.after repr rs).logs (wanted query) ↔
      (wanted query).Selects r.key ∧
        history (Store.empty.events repr rs) r.key = some (r.content, r.updatedAt)) ∧
    ((getLogSnapshots (Store.empty.after repr rs).logs (wanted query)).map LogSnapshot.key).Nodup ∧
    (getLogSnapshots (Store.empty.after repr rs).logs (wanted query)).Pairwise fun a b => b.updatedAt ≤ a.updatedAt := by
  have hperm := List.mergeSort_perm
    ((Store.empty.after repr rs).logs.rows.filter fun r => decide ((wanted query).Selects r.key))
    fun a b => decide (b.updatedAt ≤ a.updatedAt)
  refine ⟨fun r => ?_, ?_, ?_⟩
  · have hhistory : history (Store.empty.events repr rs) r.key = stored (Store.empty.after repr rs).logs r.key :=
      (stored_after rs Store.empty r.key).symm
    rw [hhistory]
    exact mem_getLogSnapshots
  · rw [getLogSnapshots, (hperm.map LogSnapshot.key).nodup_iff]
    exact (Store.empty.after repr rs).logs.nodup.sublist (List.filter_sublist.map LogSnapshot.key)
  · have hsorted : (getLogSnapshots (Store.empty.after repr rs).logs (wanted query)).Pairwise
        fun a b => decide (b.updatedAt ≤ a.updatedAt) = true :=
      List.pairwise_mergeSort (fun a b c hab hbc => by simp only [decide_eq_true_eq] at *; omega)
        (fun a b => by simp only [Bool.or_eq_true, decide_eq_true_eq]; omega) _
    exact hsorted.imp of_decide_eq_true

end Hawal.Panel
