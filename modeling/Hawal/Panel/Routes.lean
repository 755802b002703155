import Hawal.Panel.Database
import Hawal.Lib.Run

/-!
# The panel's API

The routes of `server.py` that write to the database, each as it reads the request, checks it and
runs its statement. A request is served without interruption: none of these routes awaits
anything before its statements are committed. What it draws at random or learns from outside
(the ids and tokens, whether a node could be located, the peer's address) comes with the request.

A request that raises or is refused leaves the database as it was; reports of traffic are the
exception, for each of them is committed by itself.
-/

namespace Hawal.Panel

open Hawal.Lib Hawal.Lib.Python

/-- Why a request is not served. -/
inductive Failure where
  /-- An exception: the answer has status 500. -/
  | raised
  /-- An answer with this status and error. -/
  | refused (status : ℕ) (error : Str)

/-- The value, or an exception. -/
def orRaise {α : Type} : Option α → Except Failure α
  | some a => .ok a
  | none => .error .raised

theorem bind_eq_ok {α β : Type} {x : Except Failure α} {f : α → Except Failure β} {b : β} :
    (x >>= f) = .ok b ↔ ∃ a, x = .ok a ∧ f a = .ok b := by
  cases x with
  | error e =>
    constructor
    · intro h
      cases h
    · rintro ⟨a, h, -⟩
      cases h
  | ok a =>
    constructor
    · exact fun h => ⟨a, rfl, h⟩
    · rintro ⟨a', h, hf⟩
      cases h
      exact hf

@[simp] theorem orRaise_eq_ok {α : Type} {o : Option α} {a : α} : orRaise o = .ok a ↔ o = some a := by
  cases o <;> simp [orRaise]

/-- `json.loads` of the body, and that it has a `get`. -/
def readBody (body : Option Json) : Except Failure Fields := orRaise (body.bind Json.fields?)

/-- `secrets.token_hex`, for the bits drawn. -/
def tokenHex (digits n : ℕ) : Text := ⟨hexDigits digits n, hexDigits_encodable digits n⟩

/-- `node_` and `tun_` ids. -/
def drawnId (kind : String) (id : BitVec 32) : Text :=
  ⟨str kind ++ hexDigits 8 id.toNat, (encodable_str kind).append (hexDigits_encodable 8 id.toNat)⟩

/-! ### Nodes -/

/-- The row that `POST /api/nodes` saves; `located` says that `resolve_geoip` returned values
that the columns take. -/
def newNode (id : BitVec 32) (token : BitVec 128) (located : Bool) (data : Fields) : Option Node := do
  let name ← (data.get "name" (.str (str "New Node"))).bindTextNotNull
  let ip ← (data.get "ip" (.str (str "127.0.0.1"))).bindTextNotNull
  let role ← (data.get "role" (.str (str "kharej"))).bindTextNotNull
  if located then
    some
      { id := drawnId "node_" id, name := name, ip := ip, role := role
        token := tokenHex 32 token.toNat, agentRestartNonce := 0 }
  else none

/-- `POST /api/nodes`. -/
def createNode (db : Db) (id : BitVec 32) (token : BitVec 128) (located : Bool) (body : Option Json) :
    Except Failure Db := do
  let data ← readBody body
  let node ← orRaise (newNode id token located data)
  orRaise (db.saveNode node)

/-- The address of a node: the forwarded one, the one that the agent reports or the peer's. -/
def clientIp (forwarded peer : Text) (data : Fields) : Json :=
  let publicIp := data.get "public_ip" .null
  if forwarded.val ≠ [] then .str forwarded.val
  else if publicIp.truthy then publicIp
  else .str peer.val

/-- The load of a node, which goes into columns that take any value that binds. -/
def metrics (data : Fields) : List Json :=
  [data.get "cpu_percent" (.int 0), data.get "ram_used_mb" (.int 0), data.get "ram_total_mb" (.int 0),
    data.get "uptime_seconds" (.int 0)]

/-- `POST /api/agent/heartbeat`. The answer's list of configurations, which no agent reads, is
left out. -/
def heartbeat (db : Db) (token : Option Text) (forwarded peer : Text) (body : Option Json) :
    Except Failure Db :=
  match token.bind db.getNodeByToken with
  | none => .error (.refused 401 (str "Unauthorized node token"))
  | some node => do
    let data ← readBody body
    let ip ← orRaise (clientIp forwarded peer data).bindTextNotNull
    if (metrics data).all fun v => v.bindText.isSome then .ok (db.updateNodeHeartbeat node.id ip)
    else .error .raised

/-! ### Tunnels -/

/-- The carrier a tunnel gets when the request names none. -/
def defaultTransport (coreType : Json) : Json :=
  if coreType.isStr (str "paqet") then .str (str "kcp")
  else if coreType.isStr (str "hawal") then .str (str "stealth")
  else if coreType.isStr (str "gost") then .str (str "tls")
  else .str (str "ws")

/-- What `POST /api/tunnels` reads out of the body. -/
structure TunnelForm where
  name : Json
  coreType : Json
  serverNodeId : Json
  clientNodeId : Json
  corePort : ℤ
  transport : Json
  ports : Json

/-- The values of a body, with their defaults; `none` when the port has no `int`. -/
def tunnelForm (data : Fields) : Option TunnelForm := do
  let coreType := data.get "core_type" (.str (str "hawal"))
  let corePort ← (data.get "core_port" (.int 3090)).toInt
  some
    { name := data.get "name" (.str (str "New Tunnel"))
      coreType := coreType
      serverNodeId := data.get "server_node_id" .null
      clientNodeId := data.get "client_node_id" .null
      corePort := corePort
      transport := data.get "transport" (defaultTransport coreType)
      ports := data.get "ports" (.list [.str (str "443=127.0.0.1:443")]) }

/-- `validate_tunnel_ports` for a tunnel that is not there yet: the error, if there is one. It
compares the node named `server_node_id`, whatever the engine and the status. -/
def validateTunnelPorts (db : Db) (corePort : ℤ) (serverNodeId : Json) : Option Str :=
  (db.listTunnels.find? fun t => serverNodeId.isStr t.serverNodeId.val && t.corePort = corePort).map fun t =>
    str "پورت ترانسپورت " ++ decimal corePort ++ str " در حال حاضر توسط تانل '" ++ t.name.val ++
      str "' روی همین نود در حال استفاده است."

/-- The row that `save_tunnel` inserts, when the columns take the values. -/
def newTunnel (id : BitVec 32) (token : BitVec 64) (form : TunnelForm) : Option Tunnel := do
  let name ← form.name.bindTextNotNull
  let coreType ← form.coreType.bindTextNotNull
  let serverNodeId ← form.serverNodeId.bindTextNotNull
  let clientNodeId ← form.clientNodeId.bindTextNotNull
  let transport ← form.transport.bindTextNotNull
  if Fits64 form.corePort then
    some
      { id := drawnId "tun_" id, name := name, coreType := coreType
        serverNodeId := serverNodeId, clientNodeId := clientNodeId
        corePort := form.corePort, transport := transport, ports := form.ports
        token := tokenHex 16 token.toNat, status := text "running"
        nodelay := 1, snappy := 1, muxCon := 8, keepalive := 75, channelSize := 2048
        restartNonce := 0, bytesIn := .integer 0, bytesOut := .integer 0 }
  else none

/-- `POST /api/tunnels`. -/
def createTunnel (db : Db) (id : BitVec 32) (token : BitVec 64) (body : Option Json) : Except Failure Db := do
  let data ← readBody body
  let form ← orRaise (tunnelForm data)
  match validateTunnelPorts db form.corePort form.serverNodeId with
  | some err => .error (.refused 400 err)
  | none =>
    let tunnel ← orRaise (newTunnel id token form)
    .ok (db.saveTunnel tunnel)

/-- The error for a tunnel that is not there. -/
def tunnelNotFound : Failure := .refused 404 (str "Tunnel not found")

/-- What `PUT /api/tunnels/<id>` sets in the row `t`, when the columns take the values. Unlike a
new tunnel an edited one without `ports` gets none, and a name that is false keeps the old one. -/
def editOf (data : Fields) (corePort : ℤ) (t : Tunnel) : Option Edit := do
  let coreType := data.get "core_type" (.str (str "hawal"))
  let name := data.get "name" .null
  let transport := data.get "transport" (defaultTransport coreType)
  let name ← (if name.truthy then name else .str t.name.val).bindTextNotNull
  let transport ← transport.bindTextNotNull
  let coreType ← coreType.bindTextNotNull
  if Fits64 corePort then
    some
      { name := name, coreType := coreType, corePort := corePort, transport := transport
        ports := data.get "ports" (.list []) }
  else none

/-- `PUT /api/tunnels/<id>`. The port is not checked against other tunnels. -/
def editTunnel (db : Db) (id : Text) (body : Option Json) : Except Failure Db := do
  let data ← readBody body
  let corePort ← orRaise (data.get "core_port" (.int 3090)).toInt
  match db.getTunnel id with
  | none => .error tunnelNotFound
  | some t =>
    let e ← orRaise (editOf data corePort t)
    .ok (db.updateTunnel id e)

/-- `POST /api/tunnels/<id>/status`. The column is `NOT NULL`, which only a row can violate. -/
def setStatus (db : Db) (id : Text) (body : Option Json) : Except Failure Db := do
  let data ← readBody body
  match ← orRaise (data.get "status" (.str (str "stopped"))).bindText with
  | some status => .ok (db.setTunnelStatus id status)
  | none => if (db.getTunnel id).isSome then .error .raised else .ok db

/-- `POST /api/tunnels/<id>/restart`. -/
def restartTunnel (db : Db) (id : Text) : Except Failure Db :=
  match db.getTunnel id with
  | none => .error tunnelNotFound
  | some _ => .ok (db.requestTunnelRestart id)

/-- One report of traffic: the tunnel and the deltas, when the report has them and they bind. -/
def readReport (rep : Json) : Option (Option Text × ℤ × ℤ) := do
  let data ← rep.fields?
  let id ← (data.get "tunnel_id" .null).bindText
  let bytesIn ← (data.get "bytes_in" (.int 0)).toInt
  let bytesOut ← (data.get "bytes_out" (.int 0)).toInt
  if Fits64 bytesIn ∧ Fits64 bytesOut then some (id, bytesIn, bytesOut) else none

/-- The loop of `POST /api/tunnels/traffic`. It commits each report; one that raises ends it. -/
def addReports : Db → List Json → Except Failure Unit × Db
  | db, [] => (.ok (), db)
  | db, rep :: reps =>
    match readReport rep with
    | none => (.error .raised, db)
    | some (none, _, _) => addReports db reps
    | some (some id, bytesIn, bytesOut) => addReports (db.updateTunnelTraffic id bytesIn bytesOut) reps

/-- The reports of a body. -/
def readReports (body : Option Json) : Except Failure (List Json) := do
  let data ← readBody body
  orRaise (data.get "reports" (.list [])).iter

/-- `POST /api/tunnels/traffic`. -/
def traffic (db : Db) (body : Option Json) : Except Failure Unit × Db :=
  match readReports body with
  | .ok reps => addReports db reps
  | .error e => (.error e, db)

/-! ### Requests -/

/-- A request that may write. A body is what `json.loads` makes of it, if it is JSON. -/
inductive Request where
  | createNode (id : BitVec 32) (token : BitVec 128) (located : Bool) (body : Option Json)
  | deleteNode (id : Text)
  | heartbeat (token : Option Text) (forwarded peer : Text) (body : Option Json)
  | createTunnel (id : BitVec 32) (token : BitVec 64) (body : Option Json)
  | editTunnel (id : Text) (body : Option Json)
  | deleteTunnel (id : Text)
  | setStatus (id : Text) (body : Option Json)
  | restartTunnel (id : Text)
  | restartAgents
  | traffic (body : Option Json)

/-- The outcome of a request, and the database after it: a failure changes nothing. -/
def settle (db : Db) : Except Failure Db → Except Failure Unit × Db
  | .ok db' => (.ok (), db')
  | .error e => (.error e, db)

/-- `route_request`. -/
def route (db : Db) : Request → Except Failure Unit × Db
  | .createNode id token located body => settle db (createNode db id token located body)
  | .deleteNode id => (.ok (), db.deleteNode id)
  | .heartbeat token forwarded peer body => settle db (heartbeat db token forwarded peer body)
  | .createTunnel id token body => settle db (createTunnel db id token body)
  | .editTunnel id body => settle db (editTunnel db id body)
  | .deleteTunnel id => (.ok (), db.deleteTunnel id)
  | .setStatus id body => settle db (setStatus db id body)
  | .restartTunnel id => settle db (restartTunnel db id)
  | .restartAgents => (.ok (), db.requestAllAgentsRestart)
  | .traffic body => traffic db body

/-- The database after one request; every request can be made at any time. -/
def serve (db : Db) (r : Request) : Option Db := some (route db r).2

end Hawal.Panel
