import Hawal.Panel.Http
import Hawal.Panel.Logs
import Hawal.Panel.Settings

/-!
# From bytes to requests

`route_request` goes through its endpoints in order and takes the first whose method and path fit. Some fit paths that
others are meant for, such as `"/api/tunnels/" in path`, so the order counts.

* `dispatch` — the endpoint of a method and a path.
* `dispatch_request` — the URL of every endpoint leads to it, with the id that is in the URL.
* `Store.connect` — the state of the panel after a connection, for all bytes that the client sends.
-/

namespace Hawal.Panel

open Hawal.Lib Hawal.Lib.Python

/-- The endpoints of `route_request`. -/
inductive Endpoint where
  | index
  | staticFile (path : Str)
  | install
  | nodes
  | logs
  | clearLogs
  | agentLogs
  | createNode
  | deleteNode (id : Str)
  | tunnels
  | createTunnel
  | docker (id : Str)
  | settings
  | saveSettings
  | editTunnel (id : Str)
  | traffic
  | restartTunnel (id : Str)
  | restartAgents
  | testTunnel (id : Str)
  | deleteTunnel (id : Str)
  | setStatus (id : Str)
  | ping
  | latestPings
  | heartbeat
  | sync
  deriving DecidableEq

/-- `path.split("/")[3]`. -/
def tunnelOf (path : Str) : Str := (path.splitOn '/'.toNat).getD 3 []

/-- `"/api/tunnels/" in path and path.endswith(ending)`. -/
def AboutTunnel (ending : String) (path : Str) : Prop := str "/api/tunnels/" <:+: path ∧ str ending <:+ path

instance (ending : String) (path : Str) : Decidable (AboutTunnel ending path) := inferInstanceAs (Decidable (_ ∧ _))

/-- `route_request`: the endpoint; `none` for status 404. -/
def dispatch (method path : Str) : Option Endpoint :=
  if method = str "GET" ∧ (path = str "/" ∨ path = str "/index.html") then some .index
  else if method = str "GET" ∧ str "/static/" <+: path then some (.staticFile path)
  else if method = str "GET" ∧ path = str "/install" then some .install
  else if method = str "GET" ∧ path = str "/api/nodes" then some .nodes
  else if method = str "GET" ∧ path = str "/api/logs" then some .logs
  else if method = str "DELETE" ∧ path = str "/api/logs" then some .clearLogs
  else if method = str "POST" ∧ path = str "/api/agent/logs" then some .agentLogs
  else if method = str "POST" ∧ path = str "/api/nodes" then some .createNode
  else if method = str "DELETE" ∧ str "/api/nodes/" <+: path then some (.deleteNode (afterLast '/'.toNat path))
  else if method = str "GET" ∧ path = str "/api/tunnels" then some .tunnels
  else if method = str "POST" ∧ path = str "/api/tunnels" then some .createTunnel
  else if method = str "GET" ∧ AboutTunnel "/docker" path then some (.docker (tunnelOf path))
  else if method = str "GET" ∧ path = str "/api/settings" then some .settings
  else if method = str "POST" ∧ path = str "/api/settings" then some .saveSettings
  else if method = str "PUT" ∧ str "/api/tunnels/" <+: path then some (.editTunnel (tunnelOf path))
  else if method = str "POST" ∧ path = str "/api/tunnels/traffic" then some .traffic
  else if method = str "POST" ∧ AboutTunnel "/restart" path then some (.restartTunnel (tunnelOf path))
  else if method = str "POST" ∧ path = str "/api/agents/restart" then some .restartAgents
  else if method = str "POST" ∧ AboutTunnel "/test" path then some (.testTunnel (tunnelOf path))
  else if method = str "DELETE" ∧ str "/api/tunnels/" <+: path then some (.deleteTunnel (afterLast '/'.toNat path))
  else if method = str "POST" ∧ AboutTunnel "/status" path then some (.setStatus (tunnelOf path))
  else if method = str "POST" ∧ path = str "/api/ping" then some .ping
  else if method = str "GET" ∧ path = str "/api/pings/latest" then some .latestPings
  else if method = str "POST" ∧ path = str "/api/agent/heartbeat" then some .heartbeat
  else if method = str "GET" ∧ path = str "/api/agent/sync" then some .sync
  else none

/-- The path of a tunnel's endpoint. -/
def tunnelPath (id : Str) (ending : String) : Str := str "/api/tunnels/" ++ id ++ str ending

/-- The method and the path of an endpoint. -/
def Endpoint.request : Endpoint → Str × Str
  | .index => (str "GET", str "/")
  | .staticFile path => (str "GET", path)
  | .install => (str "GET", str "/install")
  | .nodes => (str "GET", str "/api/nodes")
  | .logs => (str "GET", str "/api/logs")
  | .clearLogs => (str "DELETE", str "/api/logs")
  | .agentLogs => (str "POST", str "/api/agent/logs")
  | .createNode => (str "POST", str "/api/nodes")
  | .deleteNode id => (str "DELETE", str "/api/nodes/" ++ id)
  | .tunnels => (str "GET", str "/api/tunnels")
  | .createTunnel => (str "POST", str "/api/tunnels")
  | .docker id => (str "GET", tunnelPath id "/docker")
  | .settings => (str "GET", str "/api/settings")
  | .saveSettings => (str "POST", str "/api/settings")
  | .editTunnel id => (str "PUT", tunnelPath id "")
  | .traffic => (str "POST", str "/api/tunnels/traffic")
  | .restartTunnel id => (str "POST", tunnelPath id "/restart")
  | .restartAgents => (str "POST", str "/api/agents/restart")
  | .testTunnel id => (str "POST", tunnelPath id "/test")
  | .deleteTunnel id => (str "DELETE", tunnelPath id "")
  | .setStatus id => (str "POST", tunnelPath id "/status")
  | .ping => (str "POST", str "/api/ping")
  | .latestPings => (str "GET", str "/api/pings/latest")
  | .heartbeat => (str "POST", str "/api/agent/heartbeat")
  | .sync => (str "GET", str "/api/agent/sync")

/-- Ids without a slash, and static files in their directory. -/
def Endpoint.Named : Endpoint → Prop
  | .staticFile path => str "/static/" <+: path
  | .deleteNode id | .docker id | .editTunnel id | .restartTunnel id | .testTunnel id | .deleteTunnel id
  | .setStatus id => '/'.toNat ∉ id
  | _ => True

/-! ### The path of a tunnel -/

variable {id : Str}

theorem prefix_tunnelPath (id : Str) (ending : String) : str "/api/tunnels/" <+: tunnelPath id ending :=
  (List.prefix_append _ id).trans (List.prefix_append _ _)

/-- It is none of the fixed paths that begin in another way. -/
theorem tunnelPath_ne {path : String} (h : ¬ str "/api/tunnels/" <+: str path) (ending : String) :
    tunnelPath id ending ≠ str path := by
  intro heq
  exact h (heq ▸ prefix_tunnelPath id ending)

theorem not_prefix_tunnelPath {start : String} (h : ¬ str start <+: str "/api/tunnels/")
    (h' : ¬ str "/api/tunnels/" <+: str start) (ending : String) : ¬ str start <+: tunnelPath id ending := by
  intro hstart
  rcases List.prefix_or_prefix_of_prefix hstart (prefix_tunnelPath id ending) with hp | hp
  · exact h hp
  · exact h' hp

theorem tunnelPath_ne_traffic {ending : String} (h : '/'.toNat ∈ str ending) :
    tunnelPath id ending ≠ str "/api/tunnels/traffic" := by
  intro heq
  have htail : id ++ str ending = str "traffic" := by
    rw [tunnelPath, List.append_assoc] at heq
    exact List.append_cancel_left (heq.trans (show _ = str "/api/tunnels/" ++ str "traffic" from rfl))
  have hmem : '/'.toNat ∈ str "traffic" := htail ▸ List.mem_append_right id h
  exact absurd hmem (by decide)

/-- Endings are told apart. -/
theorem aboutTunnel_tunnelPath {ending ending' : String} (h : ¬ str ending <:+ str ending')
    (h' : ¬ str ending' <:+ str ending) : ¬ AboutTunnel ending (tunnelPath id ending') := by
  rintro ⟨-, hsuffix⟩
  have hself : str ending' <:+ tunnelPath id ending' := List.suffix_append _ _
  rcases List.suffix_or_suffix_of_suffix hsuffix hself with hs | hs
  · exact h hs
  · exact h' hs

theorem aboutTunnel_self (id : Str) (ending : String) : AboutTunnel ending (tunnelPath id ending) :=
  ⟨(prefix_tunnelPath id ending).isInfix, List.suffix_append _ _⟩

theorem tunnelOf_tunnelPath (h : '/'.toNat ∉ id) {ending : String}
    (hending : str ending = [] ∨ ∃ rest, str ending = '/'.toNat :: rest) : tunnelOf (tunnelPath id ending) = id := by
  have hpath : tunnelPath id ending =
      [] ++ '/'.toNat :: (str "api" ++ '/'.toNat :: (str "tunnels" ++ '/'.toNat :: (id ++ str ending))) := by
    rw [tunnelPath, List.append_assoc]
    rfl
  have hid : ((id ++ str ending).splitOn '/'.toNat).head? = some id := by
    rcases hending with hending | ⟨rest, hending⟩
    · rw [hending, List.append_nil, List.splitOn_eq_singleton h]
      rfl
    · rw [hending, List.splitOn_append_cons_self_of_not_mem h]
      rfl
  have hapi : '/'.toNat ∉ str "api" := by decide
  have htunnels : '/'.toNat ∉ str "tunnels" := by decide
  rw [tunnelOf, hpath, List.splitOn_append_cons_self_of_not_mem (List.not_mem_nil),
    List.splitOn_append_cons_self_of_not_mem hapi, List.splitOn_append_cons_self_of_not_mem htunnels]
  rw [List.getD_cons_succ, List.getD_cons_succ, List.getD_cons_succ, List.getD_eq_getElem?_getD,
    ← List.head?_eq_getElem?, hid, Option.getD_some]

/-! ### All endpoints -/

/-- **The URL of every endpoint leads to it**, with the id that is in the URL. -/
theorem dispatch_request {e : Endpoint} (h : e.Named) : dispatch e.request.1 e.request.2 = some e := by
  cases e with
  | staticFile path =>
    have hindex : ¬ (path = str "/" ∨ path = str "/index.html") := by
      have hfixed : ∀ p ∈ [str "/", str "/index.html"], ¬ str "/static/" <+: p := by decide
      rintro (rfl | rfl)
      · exact hfixed _ (by simp) h
      · exact hfixed _ (by simp) h
    have hstatic : str "/static/" <+: path := h
    simp [dispatch, Endpoint.request, hindex, hstatic]
  | deleteNode id =>
    have hlogs : str "/api/nodes/" ++ id ≠ str "/api/logs" := by
      intro heq
      have hprefix : str "/api/nodes/" <+: str "/api/logs" := ⟨id, heq⟩
      exact absurd hprefix (by decide)
    have hlast : afterLast 47 (str "/api/nodes/" ++ id) = id := afterLast_append_cons (s := str "/api/nodes") h
    simp [dispatch, Endpoint.request, str_inj, hlogs, hlast]
  | docker id =>
    have hid : tunnelOf (tunnelPath id "/docker") = id := tunnelOf_tunnelPath h (.inr ⟨_, rfl⟩)
    simp (disch := decide) [dispatch, Endpoint.request, str_inj, tunnelPath_ne, not_prefix_tunnelPath,
      aboutTunnel_self, hid]
  | editTunnel id =>
    have hid : tunnelOf (tunnelPath id "") = id := tunnelOf_tunnelPath h (.inl rfl)
    simp [dispatch, Endpoint.request, str_inj, prefix_tunnelPath, hid]
  | restartTunnel id =>
    have hid : tunnelOf (tunnelPath id "/restart") = id := tunnelOf_tunnelPath h (.inr ⟨_, rfl⟩)
    simp (disch := decide) [dispatch, Endpoint.request, str_inj, tunnelPath_ne, tunnelPath_ne_traffic,
      aboutTunnel_self, hid]
  | testTunnel id =>
    have hid : tunnelOf (tunnelPath id "/test") = id := tunnelOf_tunnelPath h (.inr ⟨_, rfl⟩)
    simp (disch := decide) [dispatch, Endpoint.request, str_inj, tunnelPath_ne, tunnelPath_ne_traffic,
      aboutTunnel_tunnelPath, aboutTunnel_self, hid]
  | deleteTunnel id =>
    have hlast : afterLast 47 (tunnelPath id "") = id := by
      rw [tunnelPath, show str "" = [] from rfl, List.append_nil]
      exact afterLast_append_cons (s := str "/api/tunnels") h
    simp (disch := decide) [dispatch, Endpoint.request, str_inj, tunnelPath_ne, not_prefix_tunnelPath,
      prefix_tunnelPath, hlast]
  | setStatus id =>
    have hid : tunnelOf (tunnelPath id "/status") = id := tunnelOf_tunnelPath h (.inr ⟨_, rfl⟩)
    simp (disch := decide) [dispatch, Endpoint.request, str_inj, tunnelPath_ne, tunnelPath_ne_traffic,
      aboutTunnel_tunnelPath, aboutTunnel_self, hid]
  | _ => decide +kernel

/-! ### What a connection does -/

/-- What a request draws, looks up or reads off the connection and the clock. -/
structure Draws where
  id : BitVec 32
  nodeToken : BitVec 128
  tunnelToken : BitVec 64
  /-- The location of a new node can be stored. -/
  located : Bool
  peer : Text
  now : ℕ

section Connect

variable (repr : Json → Str) (R : FloatReader) (netlocOk : Str → Bool)

/-- `json.loads(body.decode("utf-8"))`. -/
def readJson (body : List ℕ) : Option Json := (decodeStrict body).bind (loads R)

/-- An id out of a path, to be bound to a statement. -/
def text? (id : Str) : Option Text := if h : Encodable id then some ⟨id, h⟩ else none

/-- What is asked for at an endpoint, where nodes, tunnels and logs are written or an agent asks. -/
def Endpoint.asks (env : Draws) (query : Query) (headers : Headers) (body : List ℕ) : Endpoint → Option PanelRequest
  | .clearLogs => some (.clearLogs query)
  | .agentLogs => some (.agent (.logs headers env.now (readJson R body)))
  | .createNode => some (.admin (.createNode env.id env.nodeToken env.located (readJson R body)))
  | .deleteNode id => (text? id).map fun id => .admin (.deleteNode id)
  | .createTunnel => some (.admin (.createTunnel env.id env.tunnelToken (readJson R body)))
  | .editTunnel id => (text? id).map fun id => .admin (.editTunnel id (readJson R body))
  | .traffic => some (.agent (.traffic headers (readJson R body)))
  | .restartTunnel id => (text? id).map fun id => .admin (.restartTunnel id)
  | .restartAgents => some (.admin .restartAgents)
  | .deleteTunnel id => (text? id).map fun id => .admin (.deleteTunnel id)
  | .setStatus id => (text? id).map fun id => .admin (.setStatus id (readJson R body))
  | .heartbeat => some (.agent (.heartbeat headers env.peer env.now (readJson R body)))
  | .sync => some (.agent (.sync headers))
  | _ => none

/-- What a connection asks for. -/
def Http.Handled.asks (env : Draws) : Http.Handled → Option PanelRequest
  | .routed method path query headers body =>
    (dispatch method path).bind fun e => e.asks R env query headers body
  | _ => none

/-- The state after what was asked for. -/
def Store.grant (s : Store) (r : Option PanelRequest) : Store := (r.map (s.next repr)).getD s

/-- The state after a connection, for all bytes that the client sends. -/
def Store.connect (s : Store) (env : Draws) (bs : List ℕ) : Store :=
  s.grant repr ((Http.handleClient netlocOk bs).asks R env)

end Connect

/-- **A request takes effect as it was meant**: what a client writes to the URL of an endpoint does to the state what
the endpoint does with these parameters, headers and body, whatever bytes follow. If the body is too large, it does
nothing. -/
theorem connect_print (repr : Json → Str) (R : FloatReader) (netlocOk : Str → Bool) (s : Store) (env : Draws)
    {e : Endpoint} (he : e.Named) {m : Http.Message} (hm : m.Plain) (hrequest : (m.method, m.path) = e.request)
    (more : List ℕ) :
    s.connect repr R netlocOk env (m.print ++ more) =
      if Http.maxHttpBodyBytes < m.body.length then s
      else s.grant repr (e.asks R env (parseQsl m.query) m.received m.body) := by
  have hdispatch : dispatch m.method m.path = some e := by
    rw [← dispatch_request he, ← hrequest]
  rw [Store.connect, Http.handleClient_print netlocOk hm more]
  by_cases hlarge : Http.maxHttpBodyBytes < m.body.length
  · rw [if_pos hlarge, if_pos hlarge]
    rfl
  · rw [if_neg hlarge, if_neg hlarge, Http.Handled.asks, hdispatch, Option.bind_some]

/-- Draws for an example. -/
def exampleDraws : Draws := ⟨1, 1, 1, true, text "127.0.0.1", 0⟩

/-- A state with a tunnel. -/
def openStore : Store := { Store.empty with db := (exec serve Db.empty openTunnel).getD Db.empty }

/-- The tunnels of a state, and how often they were to restart. -/
def Store.nonces (s : Store) : List (Text × ℤ) := s.db.tunnels.rows.map fun t => (t.id, t.restartNonce)

/-- A request to restart the tunnel, from a dashboard, and another one after it, which is not looked at. -/
theorem restartMessage_connects : Http.restartMessage.Plain ∧ openStore.nonces = [(text "tun_00000001", 0)] ∧
    (openStore.connect (fun _ => []) Settings.verbatim (fun _ => true) exampleDraws
      (Http.restartMessage.print ++ Http.trafficMessage.print)).nonces = [(text "tun_00000001", 1)] := by
  have hnamed : (Endpoint.restartTunnel (str "tun_00000001")).Named :=
    (show '/'.toNat ∉ str "tun_00000001" by decide)
  refine ⟨Http.restartMessage_plain, by decide +kernel, ?_⟩
  rw [connect_print (fun _ => []) Settings.verbatim (fun _ => true) openStore exampleDraws hnamed
    Http.restartMessage_plain rfl Http.trafficMessage.print]
  decide +kernel

end Hawal.Panel
