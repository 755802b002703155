import Hawal.Lib.Sqlite
import Hawal.Lib.Table

/-!
# The panel's database

The tables `nodes` and `tunnels` of `db.py` and the statements that are run on them. Every
connection comes from `get_db`, which runs no `PRAGMA`: SQLite then reads over the `FOREIGN KEY`
clauses of the schema, so that deleting a node is deleting its row and nothing else.

A row has the columns that some decision depends on. Columns that are only shown (the location
of a node, its load, when it was last seen, when a row was made) are left out, but a value that
such a column cannot take still fails the statement.
-/

namespace Hawal.Panel

open Hawal.Lib Hawal.Lib.Python

/-- A row of `nodes`. -/
structure Node where
  id : Text
  name : Text
  ip : Text
  role : Text
  token : Text
  agentRestartNonce : ℤ
  deriving DecidableEq

/-- A row of `tunnels`. The ports are the value that `ports_json` encodes. -/
structure Tunnel where
  id : Text
  name : Text
  coreType : Text
  serverNodeId : Text
  clientNodeId : Text
  corePort : ℤ
  transport : Text
  ports : Json
  token : Text
  status : Text
  nodelay : ℤ
  snappy : ℤ
  muxCon : ℤ
  keepalive : ℤ
  channelSize : ℤ
  restartNonce : ℤ
  bytesIn : Numeric
  bytesOut : Numeric

/-- The columns that `update_tunnel` sets. -/
structure Edit where
  name : Text
  coreType : Text
  corePort : ℤ
  transport : Text
  ports : Json

/-- A row of `tunnels` after the edit. -/
def Edit.apply (e : Edit) (t : Tunnel) : Tunnel :=
  { t with
    name := e.name, coreType := e.coreType, corePort := e.corePort, transport := e.transport, ports := e.ports }

/-- The database. -/
structure Db where
  nodes : Table Node.id
  tunnels : Table Tunnel.id
  /-- `token TEXT NOT NULL UNIQUE`. -/
  tokens : nodes.Unique Node.token

namespace Db

/-- The database that `init_db` makes. -/
def empty : Db where
  nodes := Table.empty
  tunnels := Table.empty
  tokens := fun n hn => absurd hn (Table.not_mem_empty n)

variable (db : Db)

/-! ### Nodes -/

/-- `get_node`. -/
def getNode (id : Text) : Option Node := db.nodes.find id

/-- `get_node_by_token`. -/
def getNodeByToken (token : Text) : Option Node := db.nodes.rows.find? fun n => decide (n.token = token)

/-- What `save_node` makes of a row that is there: the token stays. -/
def mergeNode (new old : Node) : Node := { old with name := new.name, ip := new.ip, role := new.role }

/-- `save_node`, with the values that the columns take; `none` when the token of a new row is
another row's. -/
def saveNode (new : Node) : Option Db :=
  if h : db.nodes.find new.id = none → ∀ n ∈ db.nodes.rows, n.token ≠ new.token then
    some
      { db with
        nodes := db.nodes.upsert new (mergeNode new) fun _ => rfl
        tokens := db.tokens.upsert (fun _ => rfl) h }
  else none

/-- `update_node_heartbeat`, for the column `ip`. -/
def updateNodeHeartbeat (id ip : Text) : Db :=
  { db with
    nodes := db.nodes.update id (fun n => { n with ip := ip }) fun _ => rfl
    tokens := db.tokens.update fun _ => rfl }

/-- `delete_node`. -/
def deleteNode (id : Text) : Db := { db with nodes := db.nodes.delete id, tokens := db.tokens.delete }

/-- `request_all_agents_restart`. -/
def requestAllAgentsRestart : Db :=
  { db with
    nodes := db.nodes.updateAll (fun n => { n with agentRestartNonce := n.agentRestartNonce + 1 }) fun _ => rfl
    tokens := db.tokens.updateAll fun _ => rfl }

/-! ### Tunnels -/

/-- The rows that `list_tunnels` goes through. -/
def listTunnels : List Tunnel := db.tunnels.rows

/-- `get_tunnel`. -/
def getTunnel (id : Text) : Option Tunnel := db.tunnels.find id

/-- What `save_tunnel` makes of a row that is there: the counters stay. -/
def mergeTunnel (new old : Tunnel) : Tunnel :=
  { new with
    id := old.id, restartNonce := old.restartNonce, bytesIn := old.bytesIn, bytesOut := old.bytesOut }

/-- `save_tunnel`, with the values that the columns take. -/
def saveTunnel (new : Tunnel) : Db :=
  { db with tunnels := db.tunnels.upsert new (mergeTunnel new) fun _ => rfl }

/-- `UPDATE tunnels SET … WHERE id = ?`. -/
def updateTunnelRow (id : Text) (f : Tunnel → Tunnel) (hf : ∀ t, (f t).id = t.id) : Db :=
  { db with tunnels := db.tunnels.update id f hf }

/-- `update_tunnel`, with the values that the columns take. -/
def updateTunnel (id : Text) (e : Edit) : Db := db.updateTunnelRow id e.apply fun _ => rfl

/-- `request_tunnel_restart`. -/
def requestTunnelRestart (id : Text) : Db :=
  db.updateTunnelRow id (fun t => { t with restartNonce := t.restartNonce + 1 }) fun _ => rfl

/-- `update_tunnel_traffic`. -/
def updateTunnelTraffic (id : Text) (bytesIn bytesOut : ℤ) : Db :=
  db.updateTunnelRow id (fun t => { t with
    bytesIn := sqlAdd t.bytesIn bytesIn, bytesOut := sqlAdd t.bytesOut bytesOut }) fun _ => rfl

/-- `set_tunnel_absolute_traffic`. -/
def setTunnelAbsoluteTraffic (id : Text) (bytesIn bytesOut : ℤ) : Db :=
  db.updateTunnelRow id (fun t => { t with bytesIn := .integer bytesIn, bytesOut := .integer bytesOut }) fun _ => rfl

/-- `set_tunnel_status`. -/
def setTunnelStatus (id status : Text) : Db :=
  db.updateTunnelRow id (fun t => { t with status := status }) fun _ => rfl

/-- `delete_tunnel`. -/
def deleteTunnel (id : Text) : Db := { db with tunnels := db.tunnels.delete id }

end Db

end Hawal.Panel
