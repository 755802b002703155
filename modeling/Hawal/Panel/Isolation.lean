import Hawal.Panel.Traffic
import Hawal.Panel.Sync
import Mathlib.Logic.Function.Basic

/-!
# What an agent's request can change

An agent sends heartbeats, asks for its configurations, and sends logs and traffic. The first three
look up the node whose token the request carries, each in a slightly different header, and write
only for that node. `POST /api/tunnels/traffic` looks at no token: it adds the deltas of any
request to the counters of any tunnel.

The state is the database with the columns of a node that are only shown and the table
`log_snapshots`. `isolated_iff` says when a request changes no more than what belongs to its node.
-/

namespace Hawal.Panel

open Hawal.Lib Hawal.Lib.Python

/-! ### Headers -/

/-- The headers of a request: names in lower case, and values, in the order of their lines. A value
is decoded from bytes, those that are no UTF-8 left out. -/
abbrev Headers := List (Str × Text)

/-- `headers.get(k)`: a later line has overwritten an earlier one. -/
def Headers.get (h : Headers) (k : String) : Option Text :=
  (h.reverse.find? fun p => decide (p.1 = str k)).map Prod.snd

/-- `headers.get(k, "")`. -/
def Headers.getText (h : Headers) (k : String) : Text := (h.get k).getD (text "")

/-- `headers.get("authorization", "") or headers.get("Authorization", "")`. -/
def authHeader (h : Headers) : Text :=
  if (h.getText "authorization").val ≠ [] then h.getText "authorization" else h.getText "Authorization"

theorem mem_of_mem_replaceFrom_nil {old : Str} {c : ℕ} :
    ∀ (s : Str) (skip : ℕ), c ∈ replaceFrom old [] skip s → c ∈ s := by
  intro s
  induction s with
  | nil =>
    intro skip h
    cases skip <;> exact h
  | cons d rest ih =>
    intro skip h
    cases skip with
    | succ skip => exact List.mem_cons_of_mem d (ih skip h)
    | zero =>
      unfold replaceFrom at h
      split at h
      · exact List.mem_cons_of_mem d (ih _ h)
      · rcases List.mem_cons.mp h with rfl | h
        · exact List.mem_cons_self
        · exact List.mem_cons_of_mem d (ih 0 h)

/-- `auth_header.replace("Bearer ", "").strip()`. -/
def bearer (h : Headers) : Text :=
  ⟨strip (replace (str "Bearer ") [] (authHeader h).val), fun c hc =>
    (authHeader h).property c (mem_of_mem_replaceFrom_nil _ 0
      ((List.dropWhile_suffix _).subset ((List.rdropWhile_prefix _ _).subset hc)))⟩

/-- `… or headers.get("x-node-token")`. -/
def nodeToken (h : Headers) : Option Text := if (bearer h).val ≠ [] then some (bearer h) else h.get "x-node-token"

/-! ### The state -/

/-- The columns of a node that are only shown. -/
structure Load where
  metrics : List Json
  lastSeen : ℕ

/-- A row of `log_snapshots`. -/
structure LogSnapshot where
  nodeId : Text
  source : Text
  content : Text
  updatedAt : ℕ

/-- `PRIMARY KEY (node_id, source)`. -/
def LogSnapshot.key (r : LogSnapshot) : Text × Text := (r.nodeId, r.source)

/-- The database with what is shown of a node, by its id, and the logs. -/
structure Store where
  db : Db
  loads : Text → Option Load
  logs : Table LogSnapshot.key

/-! ### The endpoints -/

variable (repr : Json → Str)

/-- What a new snapshot makes of the row that is there. -/
def mergeSnapshot (new old : LogSnapshot) : LogSnapshot :=
  { old with content := new.content, updatedAt := new.updatedAt }

/-- A row for the end of `str(content)`, when the values bind. -/
def newSnapshot (nodeId : Text) (now : ℕ) (source : Str) (content : Json) : Option LogSnapshot := do
  let shown := content.shown repr
  let source ← (Json.str source).bindTextNotNull
  let content ← (Json.str (shown.drop (shown.length - 24000))).bindTextNotNull
  some ⟨nodeId, source, content, now⟩

/-- `save_log_snapshots`; `none` when a value does not bind, which rolls all of them back. -/
def saveLogSnapshots (logs : Table LogSnapshot.key) (nodeId : Text) (now : ℕ) :
    Fields → Option (Table LogSnapshot.key)
  | [] => some logs
  | (source, content) :: rest =>
    match newSnapshot repr nodeId now source content with
    | some new => saveLogSnapshots (logs.upsert new (mergeSnapshot new) fun _ => rfl) nodeId now rest
    | none => none

/-- A request to the endpoints for agents. The time, the peer's address and the body come with it. -/
inductive AgentRequest where
  | heartbeat (headers : Headers) (peer : Text) (now : ℕ) (body : Option Json)
  | sync (headers : Headers)
  | logs (headers : Headers) (now : ℕ) (body : Option Json)
  | traffic (headers : Headers) (body : Option Json)

/-- `POST /api/agent/heartbeat`. -/
def Store.heartbeat (s : Store) (headers : Headers) (peer : Text) (now : ℕ) (body : Option Json) :
    Except Failure Store := do
  let db ← Panel.heartbeat s.db (nodeToken headers) (headers.getText "x-forwarded-for") peer body
  let data ← readBody body
  match (nodeToken headers).bind s.db.getNodeByToken with
  | none => .error .raised
  | some node => .ok { s with db := db, loads := Function.update s.loads node.id (some ⟨metrics data, now⟩) }

/-- `POST /api/agent/logs`. -/
def Store.saveLogs (s : Store) (headers : Headers) (now : ℕ) (body : Option Json) : Except Failure Store :=
  match s.db.getNodeByToken (bearer headers) with
  | none => .error (.refused 401 (str "unauthorized"))
  | some node => do
    let payload ← readBody body
    match (payload.get "snapshots" (.dict [])).fields? with
    | none => .error (.refused 400 (str "invalid snapshots"))
    | some snapshots =>
      let logs ← orRaise (saveLogSnapshots repr s.logs node.id now snapshots)
      .ok { s with logs := logs }

/-- The state after a request; one that fails changes nothing, but for reports of traffic. -/
def Store.serve (s : Store) : AgentRequest → Store
  | .heartbeat headers peer now body =>
    match s.heartbeat headers peer now body with
    | .ok s' => s'
    | .error _ => s
  -- `GET /api/agent/sync` only reads
  | .sync _ => s
  | .logs headers now body =>
    match s.saveLogs repr headers now body with
    | .ok s' => s'
    | .error _ => s
  | .traffic _ body => { s with db := (traffic s.db body).2 }

/-! ### Isolation -/

/-- The token that a request carries, where its endpoint looks for it. That for traffic looks for
none; it is looked for as for a heartbeat. -/
def AgentRequest.token : AgentRequest → Option Text
  | .heartbeat headers _ _ _ => nodeToken headers
  | .sync headers => some ((nodeToken headers).getD (text ""))
  | .logs headers _ _ => some (bearer headers)
  | .traffic headers _ => nodeToken headers

/-- The node whose token the request carries. -/
def AgentRequest.node (s : Store) (r : AgentRequest) : Option Node := r.token.bind s.db.getNodeByToken

/-- The node is one of the two of the tunnel. -/
def Tunnel.Touches (t : Tunnel) (n : Node) : Prop := t.serverNodeId = n.id ∨ t.clientNodeId = n.id

instance (t : Tunnel) (n : Node) : Decidable (t.Touches n) := inferInstanceAs (Decidable (_ ∨ _))

/-- Nothing changes but the row of a node, its log snapshots and the counters of its tunnels. -/
structure OnlyOf (n : Node) (s s' : Store) : Prop where
  nodes : (s'.db.nodes.rows.filter fun m => decide (m.id ≠ n.id)) = s.db.nodes.rows.filter fun m => decide (m.id ≠ n.id)
  loads : ∀ id, id ≠ n.id → s'.loads id = s.loads id
  logs : (s'.logs.rows.filter fun r => decide (r.nodeId ≠ n.id)) = s.logs.rows.filter fun r => decide (r.nodeId ≠ n.id)
  tunnels : List.Forall₂ (fun t t' => t' = t ∨
    t.Touches n ∧ ∃ bytesIn bytesOut, t' = { t with bytesIn := bytesIn, bytesOut := bytesOut })
    s.db.tunnels.rows s'.db.tunnels.rows

/-- A request without a node's token changes nothing; one with it, only what is the node's. -/
def Isolated (s : Store) (r : AgentRequest) : Prop :=
  match r.node s with
  | none => s.serve repr r = s
  | some n => OnlyOf n s (s.serve repr r)

/-- The reports of a body that take effect. -/
def reportsOf (body : Option Json) : List (Text × ℤ × ℤ) :=
  match readReports body with
  | .ok reps => appliedReports reps
  | .error _ => []

/-- Adding the deltas, one after the other, gives the counter back. -/
def Cancels (a : Numeric) (ds : List ℤ) : Prop := ds.foldl sqlAdd a = a

instance (a : Numeric) (ds : List ℤ) : Decidable (Cancels a ds) := inferInstanceAs (Decidable (_ = _))

/-- The reports of traffic cancel out for every tunnel that is not the node's. -/
def Harmless (s : Store) (r : AgentRequest) : Prop :=
  match r with
  | .traffic _ body => ∀ t ∈ s.db.tunnels.rows, (∀ n, r.node s = some n → ¬ t.Touches n) →
    Cancels t.bytesIn ((deltasOf t.id (reportsOf body)).map Prod.fst) ∧
      Cancels t.bytesOut ((deltasOf t.id (reportsOf body)).map Prod.snd)
  | _ => True

/-! ### The endpoints that look at the token -/

theorem OnlyOf.refl (n : Node) (s : Store) : OnlyOf n s s where
  nodes := rfl
  loads := fun _ _ => rfl
  logs := rfl
  tunnels := List.forall₂_same.mpr fun _ _ => .inl rfl

variable {repr}

/-- A heartbeat writes the row of the node whose token it carries. -/
theorem heartbeat_eq_ok_of_node {s s' : Store} {headers : Headers} {peer : Text} {now : ℕ} {body : Option Json}
    (h : s.heartbeat headers peer now body = .ok s') :
    ∃ n ip load, (nodeToken headers).bind s.db.getNodeByToken = some n ∧
      s' = { s with db := s.db.updateNodeHeartbeat n.id ip, loads := Function.update s.loads n.id (some load) } := by
  simp only [Store.heartbeat, bind_eq_ok] at h
  obtain ⟨db, hdb, data, -, h⟩ := h
  cases hn : (nodeToken headers).bind s.db.getNodeByToken with
  | none =>
    rw [hn] at h
    cases h
  | some n =>
    rw [hn] at h
    simp only [Panel.heartbeat, hn, bind_eq_ok] at hdb
    obtain ⟨data', -, ip, -, hdb⟩ := hdb
    split at hdb
    · cases hdb
      cases h
      exact ⟨n, ip, _, rfl, rfl⟩
    · cases hdb

theorem onlyOf_heartbeat (s : Store) (n : Node) (ip : Text) (load : Load) :
    OnlyOf n s { s with db := s.db.updateNodeHeartbeat n.id ip, loads := Function.update s.loads n.id (some load) } where
  nodes := by
    have hrow : ∀ m : Node, m.id = n.id → decide (m.id ≠ n.id) = false := fun m hm => by simp [hm]
    exact Table.filter_update (t := s.db.nodes) (f := fun m => { m with ip := ip }) (fun _ => rfl) hrow
  loads := fun id hid => Function.update_of_ne hid _ _
  logs := rfl
  tunnels := List.forall₂_same.mpr fun _ _ => .inl rfl

theorem newSnapshot_nodeId {nodeId : Text} {now : ℕ} {source : Str} {content : Json} {new : LogSnapshot}
    (h : newSnapshot repr nodeId now source content = some new) : new.nodeId = nodeId := by
  obtain ⟨source', -, h⟩ := Option.bind_eq_some_iff.mp h
  obtain ⟨content', -, h⟩ := Option.bind_eq_some_iff.mp h
  cases h
  rfl

/-- Saving a node's snapshots leaves those of other nodes alone. -/
theorem filter_saveLogSnapshots {nodeId : Text} {now : ℕ} :
    ∀ {snapshots : Fields} {logs logs' : Table LogSnapshot.key},
      saveLogSnapshots repr logs nodeId now snapshots = some logs' →
      (logs'.rows.filter fun r => decide (r.nodeId ≠ nodeId)) = logs.rows.filter fun r => decide (r.nodeId ≠ nodeId) := by
  intro snapshots
  induction snapshots with
  | nil =>
    intro logs logs' h
    cases h
    rfl
  | cons snapshot rest ih =>
    intro logs logs' h
    obtain ⟨source, content⟩ := snapshot
    unfold saveLogSnapshots at h
    split at h
    · rename_i new hnew
      have hrow : ∀ r : LogSnapshot, r.key = new.key → decide (r.nodeId ≠ nodeId) = false := by
        intro r hr
        have hnode : r.nodeId = nodeId := (congrArg Prod.fst hr).trans (newSnapshot_nodeId hnew)
        simp [hnode]
      rw [ih h]
      have hkey : ∀ r, LogSnapshot.key (mergeSnapshot new r) = r.key := fun _ => rfl
      exact Table.filter_upsert (t := logs) hkey hrow
    · cases h

/-- Logs are saved for the node whose token the request carries. -/
theorem saveLogs_eq_ok {s s' : Store} {headers : Headers} {now : ℕ} {body : Option Json}
    (h : s.saveLogs repr headers now body = .ok s') :
    ∃ n, s.db.getNodeByToken (bearer headers) = some n ∧ OnlyOf n s s' := by
  unfold Store.saveLogs at h
  split at h
  · cases h
  · rename_i n hn
    simp only [bind_eq_ok] at h
    obtain ⟨payload, -, h⟩ := h
    split at h
    · cases h
    · simp only [bind_eq_ok, orRaise_eq_ok] at h
      obtain ⟨logs, hlogs, h⟩ := h
      cases h
      refine ⟨n, hn, rfl, fun _ _ => rfl, filter_saveLogSnapshots hlogs, ?_⟩
      exact List.forall₂_same.mpr fun _ _ => .inl rfl

/-! ### The endpoint that does not -/

/-- The row of a tunnel after these deltas. -/
def Tunnel.add (t : Tunnel) (ds : List (ℤ × ℤ)) : Tunnel :=
  { t with
    bytesIn := (ds.map Prod.fst).foldl sqlAdd t.bytesIn
    bytesOut := (ds.map Prod.snd).foldl sqlAdd t.bytesOut }

theorem Tunnel.add_eq_self {t : Tunnel} {ds : List (ℤ × ℤ)} :
    t.add ds = t ↔ Cancels t.bytesIn (ds.map Prod.fst) ∧ Cancels t.bytesOut (ds.map Prod.snd) := by
  unfold Tunnel.add Cancels
  constructor
  · intro h
    exact ⟨congrArg Tunnel.bytesIn h, congrArg Tunnel.bytesOut h⟩
  · rintro ⟨hin, hout⟩
    rw [hin, hout]

/-- Reports add their deltas to the rows that they name. -/
theorem rows_addReports (reps : List Json) : ∀ db : Db,
    (addReports db reps).2.tunnels.rows = db.tunnels.rows.map fun t => t.add (deltasOf t.id (appliedReports reps)) := by
  induction reps with
  | nil => exact fun db => (List.map_id db.tunnels.rows).symm
  | cons rep reps ih =>
    intro db
    rw [addReports, appliedReports]
    cases hr : readReport rep with
    | none => exact (List.map_id db.tunnels.rows).symm
    | some r =>
      obtain ⟨o, bytesIn, bytesOut⟩ := r
      cases o with
      | none => exact ih db
      | some id =>
        dsimp only
        rw [ih]
        show (db.tunnels.rows.map _).map _ = _
        rw [List.map_map]
        refine List.map_congr_left fun t _ => ?_
        rw [Function.comp_apply, deltasOf_cons]
        by_cases hid : t.id = id
        · rw [if_pos hid, if_pos hid.symm]
          rfl
        · rw [if_neg hid, if_neg (Ne.symm hid)]

theorem rows_traffic (db : Db) (body : Option Json) :
    (traffic db body).2.tunnels.rows = db.tunnels.rows.map fun t => t.add (deltasOf t.id (reportsOf body)) := by
  unfold traffic reportsOf
  cases readReports body with
  | ok reps => exact rows_addReports reps db
  | error e => exact (List.map_id db.tunnels.rows).symm

theorem Db.eq_of_rows {db db' : Db} (hn : db'.nodes = db.nodes) (ht : db'.tunnels.rows = db.tunnels.rows) :
    db' = db := by
  obtain ⟨nodes, ⟨rows, nodup⟩, tokens⟩ := db
  obtain ⟨nodes', ⟨rows', nodup'⟩, tokens'⟩ := db'
  cases hn
  cases ht
  rfl

/-- The database stays as it is exactly if the reports cancel out for every tunnel. -/
theorem traffic_eq_self {db : Db} {body : Option Json} :
    (traffic db body).2 = db ↔ ∀ t ∈ db.tunnels.rows, t.add (deltasOf t.id (reportsOf body)) = t := by
  constructor
  · intro h t ht
    have hrows := rows_traffic db body
    rw [h] at hrows
    rw [← List.map_id db.tunnels.rows, List.map_map] at hrows
    exact (List.map_inj_left.mp hrows t ht).symm
  · intro h
    refine Db.eq_of_rows (nodes_traffic db body) ?_
    rw [rows_traffic]
    exact (List.map_congr_left h).trans (List.map_id _)

/-- No more than the node's counters change exactly if the reports cancel out for the other tunnels. -/
theorem onlyOf_traffic {s : Store} {n : Node} {body : Option Json} :
    OnlyOf n s { s with db := (traffic s.db body).2 } ↔
      ∀ t ∈ s.db.tunnels.rows, ¬ t.Touches n → t.add (deltasOf t.id (reportsOf body)) = t := by
  have hpairs : ∀ R : Tunnel → Tunnel → Prop, List.Forall₂ R s.db.tunnels.rows (traffic s.db body).2.tunnels.rows ↔
      ∀ t ∈ s.db.tunnels.rows, R t (t.add (deltasOf t.id (reportsOf body))) := by
    intro R
    rw [rows_traffic, List.forall₂_map_right_iff, List.forall₂_same]
  constructor
  · intro h t ht htouch
    rcases (hpairs _).mp h.tunnels t ht with heq | ⟨htouch', -⟩
    · exact heq
    · exact absurd htouch' htouch
  · intro h
    refine ⟨?_, fun _ _ => rfl, rfl, (hpairs _).mpr fun t ht => ?_⟩
    · show ((traffic s.db body).2.nodes.rows.filter _) = _
      rw [nodes_traffic]
    · by_cases htouch : t.Touches n
      · exact .inr ⟨htouch, _, _, rfl⟩
      · exact .inl (h t ht htouch)

/-! ### When a request is isolated -/

theorem harmless_traffic_iff {s : Store} {headers : Headers} {body : Option Json} :
    Harmless s (.traffic headers body) ↔ ∀ t ∈ s.db.tunnels.rows,
      (∀ n, (AgentRequest.traffic headers body).node s = some n → ¬ t.Touches n) →
        t.add (deltasOf t.id (reportsOf body)) = t :=
  forall_congr' fun _ => imp_congr_right fun _ => imp_congr_right fun _ => Tunnel.add_eq_self.symm

/-- A request for traffic is isolated exactly if its reports cancel out for the tunnels that are not of
its node. -/
theorem isolated_traffic_iff {s : Store} {headers : Headers} {body : Option Json} :
    Isolated repr s (.traffic headers body) ↔ Harmless s (.traffic headers body) := by
  rw [harmless_traffic_iff]
  unfold Isolated
  cases hn : (AgentRequest.traffic headers body).node s with
  | none =>
    dsimp only
    have hserve : s.serve repr (.traffic headers body) = s ↔ (traffic s.db body).2 = s.db := by
      constructor
      · exact fun h => congrArg Store.db h
      · intro h
        rw [Store.serve, h]
    rw [hserve, traffic_eq_self]
    refine forall_congr' fun t => imp_congr_right fun _ => ?_
    constructor
    · exact fun h _ => h
    · exact fun h => h fun n hsome => by cases hsome
  | some n =>
    dsimp only
    refine onlyOf_traffic.trans (forall_congr' fun t => imp_congr_right fun _ => ?_)
    constructor
    · exact fun h hall => h (hall n rfl)
    · intro h htouch
      refine h fun n' hn' => ?_
      cases hn'
      exact htouch

/-- **When a request is isolated**: every request to the other endpoints is, and one for traffic exactly
if its reports cancel out for the tunnels that are not of its node. -/
theorem isolated_iff (repr : Json → Str) (s : Store) (r : AgentRequest) : Isolated repr s r ↔ Harmless s r := by
  cases r with
  | heartbeat headers peer now body =>
    refine iff_of_true ?_ trivial
    unfold Isolated Store.serve
    dsimp only
    cases h : s.heartbeat headers peer now body with
    | ok s' =>
      obtain ⟨n, ip, load, hn, rfl⟩ := heartbeat_eq_ok_of_node h
      have hnode : (AgentRequest.heartbeat headers peer now body).node s = some n := hn
      rw [hnode]
      exact onlyOf_heartbeat s n ip load
    | error e =>
      split
      · rfl
      · exact OnlyOf.refl _ s
  | sync headers =>
    refine iff_of_true ?_ trivial
    unfold Isolated
    split
    · rfl
    · exact OnlyOf.refl _ s
  | logs headers now body =>
    refine iff_of_true ?_ trivial
    unfold Isolated Store.serve
    dsimp only
    cases h : s.saveLogs repr headers now body with
    | ok s' =>
      obtain ⟨n, hn, honly⟩ := saveLogs_eq_ok h
      have hnode : (AgentRequest.logs headers now body).node s = some n := hn
      rw [hnode]
      exact honly
    | error e =>
      split
      · rfl
      · exact OnlyOf.refl _ s
  | traffic headers body => exact isolated_traffic_iff

/-! ### A report about another node's tunnel -/

/-- A node that has no tunnel. -/
def idleNode : Node :=
  { id := text "node_c", name := text "idle", ip := text "10.0.0.3", role := text "kharej"
    token := text "tc", agentRestartNonce := 0 }

/-- The store with a tunnel between two nodes, and a third node. -/
def trioStore : Store where
  db :=
    { nodes := ⟨[entryNode, exitNode, idleNode], by decide⟩
      tunnels := pairDb.tunnels
      tokens := by
        show ∀ r ∈ [entryNode, exitNode, idleNode], ∀ r' ∈ [entryNode, exitNode, idleNode], r.token = r'.token → r = r'
        decide }
  loads := fun _ => none
  logs := Table.empty

/-- A report of five bytes in for that tunnel. -/
def fiveBytes : Option Json :=
  some (.dict [(str "reports", .list [.dict [(str "tunnel_id", .str (str "tun_1")), (str "bytes_in", .int 5)]])])

/-- A request without a token, and one with the token of the third node, change the tunnel's counters. -/
theorem traffic_not_isolated :
    ¬ Isolated (fun _ => []) trioStore (.traffic [] fiveBytes) ∧
      ¬ Isolated (fun _ => []) trioStore
        (.traffic [(str "authorization", text "Bearer tc")] fiveBytes) := by
  have hmoved : ∀ r : AgentRequest, (∀ n, r.node trioStore = some n → n = idleNode) →
      ∀ n, r.node trioStore = some n → ¬ paqetTunnel.Touches n := by
    rintro r hr n hn
    rw [hr n hn]
    decide
  constructor
  · intro h
    obtain ⟨hin, -⟩ := isolated_traffic_iff.mp h paqetTunnel List.mem_cons_self
      (hmoved _ fun n hn => by cases hn)
    exact absurd hin (by decide +kernel)
  · intro h
    have hnode : (AgentRequest.traffic [(str "authorization", text "Bearer tc")] fiveBytes).node trioStore =
        some idleNode := by decide +kernel
    obtain ⟨hin, -⟩ := isolated_traffic_iff.mp h paqetTunnel List.mem_cons_self
      (hmoved _ fun n hn => by rw [hnode] at hn; exact (Option.some.inj hn).symm)
    exact absurd hin (by decide +kernel)

end Hawal.Panel
