import Hawal.Panel.Effects

/-!
# Where rows come from

Each row that is there after a request was there before it, as it is or with the columns changed that the
request is about, or the request has made it (`rowFrom_route`, `nodeFrom_route`). An invariant on single rows
is then a case for each of these.
-/

namespace Hawal.Panel

open Hawal.Lib Hawal.Lib.Python

variable {db db' : Db}

/-- How a row of `tunnels` that is there after a request has come about. -/
inductive RowFrom (db : Db) : Request → Tunnel → Prop
  /-- It was there before. -/
  | kept {r : Request} {t : Tunnel} (ht : t ∈ db.tunnels) : RowFrom db r t
  /-- `save_tunnel` has inserted it. -/
  | created {id : BitVec 32} {token : BitVec 64} {body : Option Json} {t : Tunnel}
      (h : AddsTunnel db id token body t) : RowFrom db (.createTunnel id token body) t
  /-- `save_tunnel` has found a row with the id. -/
  | merged {id : BitVec 32} {token : BitVec 64} {body : Option Json} {t o : Tunnel}
      (h : AddsTunnel db id token body t) (ho : o ∈ db.tunnels) (hid : o.id = t.id) :
      RowFrom db (.createTunnel id token body) (Db.mergeTunnel t o)
  | edited {id : Text} {body : Option Json} {t : Tunnel} {e : Edit} (h : Edits db id body t e) :
      RowFrom db (.editTunnel id body) (e.apply t)
  | moved {id : Text} {body : Option Json} {t : Tunnel} {status : Text} (ht : t ∈ db.tunnels) :
      RowFrom db (.setStatus id body) { t with status := status }
  | restarted {id : Text} {t : Tunnel} (ht : t ∈ db.tunnels) (hid : t.id = id) :
      RowFrom db (.restartTunnel id) { t with restartNonce := t.restartNonce + 1 }
  | counted {body : Option Json} {t : Tunnel} {bytesIn bytesOut : Numeric} (ht : t ∈ db.tunnels) :
      RowFrom db (.traffic body) { t with bytesIn := bytesIn, bytesOut := bytesOut }

/-- How a row of `nodes` that is there after a request has come about. -/
inductive NodeFrom (db : Db) : Request → Node → Prop
  | kept {r : Request} {n : Node} (hn : n ∈ db.nodes) : NodeFrom db r n
  | created {id : BitVec 32} {token : BitVec 128} {located : Bool} {body : Option Json} {n : Node}
      (h : AddsNode db id token located body n) : NodeFrom db (.createNode id token located body) n
  | merged {id : BitVec 32} {token : BitVec 128} {located : Bool} {body : Option Json} {n o : Node}
      (h : AddsNode db id token located body n) (ho : o ∈ db.nodes) :
      NodeFrom db (.createNode id token located body) (Db.mergeNode n o)
  /-- The node's agent has sent a heartbeat. -/
  | seen {token : Option Text} {forwarded peer ip : Text} {body : Option Json} {data : Fields} {n : Node}
      (hn : n ∈ db.nodes) (hbody : body = some (.dict data))
      (hip : (clientIp forwarded peer data).bindTextNotNull = some ip) :
      NodeFrom db (.heartbeat token forwarded peer body) { n with ip := ip }
  | restarted {n : Node} (hn : n ∈ db.nodes) :
      NodeFrom db .restartAgents { n with agentRestartNonce := n.agentRestartNonce + 1 }

/-! ### Tunnels -/

/-- Rows after an update of one of them. -/
theorem mem_updateTunnelRow_cases {id : Text} {f : Tunnel → Tunnel} {hf : ∀ t, (f t).id = t.id} {t : Tunnel}
    (h : t ∈ (db.updateTunnelRow id f hf).tunnels) : t ∈ db.tunnels ∨ ∃ o ∈ db.tunnels, o.id = id ∧ f o = t := by
  have hrow : t ∈ db.tunnels.update id f hf := h
  exact (Table.mem_update.mp hrow).symm.imp_left And.left

theorem rowFrom_settle {r : Request} {x : Except Failure Db} {t : Tunnel} (ht : t ∈ (settle db x).2.tunnels)
    (h : ∀ db', x = .ok db' → t ∈ db'.tunnels → RowFrom db r t) : RowFrom db r t := by
  rcases settle_cases db x with ⟨db', hok, hdb⟩ | ⟨-, hdb⟩
  · exact h db' hok (hdb ▸ ht)
  · exact .kept (hdb ▸ ht)

theorem mem_addReports {reps : List Json} : ∀ {db : Db} {t : Tunnel}, t ∈ (addReports db reps).2.tunnels →
    ∃ o ∈ db.tunnels, ∃ bytesIn bytesOut, t = { o with bytesIn := bytesIn, bytesOut := bytesOut } := by
  induction reps with
  | nil => exact fun {db t} ht => ⟨t, ht, t.bytesIn, t.bytesOut, rfl⟩
  | cons rep reps ih =>
    intro db t ht
    rw [addReports] at ht
    split at ht
    · exact ⟨t, ht, t.bytesIn, t.bytesOut, rfl⟩
    · exact ih ht
    · rename_i id bytesIn bytesOut _
      obtain ⟨o, ho, bytesIn', bytesOut', rfl⟩ := ih ht
      rw [Db.updateTunnelTraffic] at ho
      rcases mem_updateTunnelRow_cases ho with ho | ⟨o', ho', -, rfl⟩
      · exact ⟨o, ho, bytesIn', bytesOut', rfl⟩
      · exact ⟨o', ho', bytesIn', bytesOut', rfl⟩

/-- The rows of `tunnels` after a request. -/
theorem rowFrom_route {r : Request} {t : Tunnel} (ht : t ∈ (route db r).2.tunnels) : RowFrom db r t := by
  cases r with
  | createNode id token located body =>
    refine rowFrom_settle ht fun db' hok ht' => .kept ?_
    obtain ⟨n, hadd, hs⟩ := createNode_eq_ok.mp hok
    rw [Db.saveNode, dif_pos hadd.2, Option.some.injEq] at hs
    rwa [← hs] at ht'
  | deleteNode id => exact .kept ht
  | heartbeat token forwarded peer body =>
    refine rowFrom_settle ht fun db' hok ht' => .kept ?_
    obtain ⟨id, ip, rfl⟩ := heartbeat_eq_ok hok
    exact ht'
  | createTunnel id token body =>
    refine rowFrom_settle ht fun db' hok ht' => ?_
    obtain ⟨new, hadd, rfl⟩ := createTunnel_eq_ok.mp hok
    rcases Table.mem_upsert.mp ht' with (⟨-, rfl⟩ | ⟨o, ho, rfl⟩) | ⟨ht', -⟩
    · exact .created hadd
    · obtain ⟨ho, hid⟩ := Table.find_eq_some.mp ho
      exact .merged hadd ho hid
    · exact .kept ht'
  | editTunnel id body =>
    refine rowFrom_settle ht fun db' hok ht' => ?_
    obtain ⟨o, e, hedit, rfl⟩ := editTunnel_eq_ok.mp hok
    rcases mem_updateTunnelRow_cases ht' with ht' | ⟨o', ho', hid, rfl⟩
    · exact .kept ht'
    · obtain ⟨ho, hoid⟩ := Table.find_eq_some.mp hedit.1
      rw [Table.eq_of_key ho' ho (hid.trans hoid.symm)]
      exact .edited hedit
  | deleteTunnel id => exact .kept (Table.mem_delete.mp ht).1
  | setStatus id body =>
    have hset : ∀ status, t ∈ (db.setTunnelStatus id status).tunnels → RowFrom db (.setStatus id body) t := by
      intro status ht'
      rw [Db.setTunnelStatus] at ht'
      rcases mem_updateTunnelRow_cases ht' with ht' | ⟨o, ho, -, rfl⟩
      · exact .kept ht'
      · exact .moved ho
    refine rowFrom_settle ht fun db' hok ht' => ?_
    rcases setStatus_eq_ok hok with ⟨o, status, -, rfl⟩ | ⟨-, rfl | ⟨status, rfl⟩⟩
    · exact hset status ht'
    · exact .kept ht'
    · exact hset status ht'
  | restartTunnel id =>
    refine rowFrom_settle ht fun db' hok ht' => ?_
    rw [restartTunnel_eq_ok hok, Db.requestTunnelRestart] at ht'
    rcases mem_updateTunnelRow_cases ht' with ht' | ⟨o, ho, hid, rfl⟩
    · exact .kept ht'
    · exact .restarted ho hid
  | restartAgents => exact .kept ht
  | traffic body =>
    have hrows : t ∈ (traffic db body).2.tunnels := ht
    unfold traffic at hrows
    split at hrows
    · obtain ⟨o, ho, bytesIn, bytesOut, rfl⟩ := mem_addReports hrows
      exact .counted ho
    · exact .kept hrows

/-! ### Nodes -/

theorem nodeFrom_settle {r : Request} {x : Except Failure Db} {n : Node} (hn : n ∈ (settle db x).2.nodes)
    (h : ∀ db', x = .ok db' → n ∈ db'.nodes → NodeFrom db r n) : NodeFrom db r n := by
  rcases settle_cases db x with ⟨db', hok, hdb⟩ | ⟨-, hdb⟩
  · exact h db' hok (hdb ▸ hn)
  · exact .kept (hdb ▸ hn)

/-- What a heartbeat writes. -/
theorem heartbeat_moves {token : Option Text} {forwarded peer : Text} {body : Option Json}
    (h : heartbeat db token forwarded peer body = .ok db') :
    ∃ data id ip, body = some (.dict data) ∧ (clientIp forwarded peer data).bindTextNotNull = some ip ∧
      db' = db.updateNodeHeartbeat id ip := by
  unfold heartbeat at h
  cases ht : token.bind db.getNodeByToken with
  | none => simp [ht] at h
  | some node =>
    simp only [ht, bind_eq_ok, readBody_eq_ok, orRaise_eq_ok] at h
    obtain ⟨data, hbody, ip, hip, h⟩ := h
    split at h
    · exact ⟨data, node.id, ip, hbody, hip, by cases h; rfl⟩
    · cases h

/-- The rows of `nodes` after a request. -/
theorem nodeFrom_route {r : Request} {n : Node} (hn : n ∈ (route db r).2.nodes) : NodeFrom db r n := by
  cases r with
  | createNode id token located body =>
    refine nodeFrom_settle hn fun db' hok hn' => ?_
    obtain ⟨new, hadd, hs⟩ := createNode_eq_ok.mp hok
    rw [Db.saveNode, dif_pos hadd.2, Option.some.injEq] at hs
    rw [← hs] at hn'
    rcases Table.mem_upsert.mp hn' with (⟨-, rfl⟩ | ⟨o, ho, rfl⟩) | ⟨hn', -⟩
    · exact .created hadd
    · exact .merged hadd (Table.find_eq_some.mp ho).1
    · exact .kept hn'
  | deleteNode id => exact .kept (Table.mem_delete.mp hn).1
  | heartbeat token forwarded peer body =>
    refine nodeFrom_settle hn fun db' hok hn' => ?_
    obtain ⟨data, id, ip, hbody, hip, rfl⟩ := heartbeat_moves hok
    have hrow : n ∈ db.nodes.update id (fun n => { n with ip := ip }) fun _ => rfl := hn'
    rcases Table.mem_update.mp hrow with ⟨o, ho, -, rfl⟩ | ⟨hn', -⟩
    · exact .seen ho hbody hip
    · exact .kept hn'
  | createTunnel id token body =>
    refine nodeFrom_settle hn fun db' hok hn' => .kept ?_
    obtain ⟨new, -, rfl⟩ := createTunnel_eq_ok.mp hok
    exact hn'
  | editTunnel id body =>
    refine nodeFrom_settle hn fun db' hok hn' => .kept ?_
    obtain ⟨o, e, -, rfl⟩ := editTunnel_eq_ok.mp hok
    exact hn'
  | deleteTunnel id => exact .kept hn
  | setStatus id body =>
    refine nodeFrom_settle hn fun db' hok hn' => .kept ?_
    rcases setStatus_eq_ok hok with ⟨o, status, -, rfl⟩ | ⟨-, rfl | ⟨status, rfl⟩⟩
    · exact hn'
    · exact hn'
    · exact hn'
  | restartTunnel id =>
    refine nodeFrom_settle hn fun db' hok hn' => .kept ?_
    rw [restartTunnel_eq_ok hok] at hn'
    exact hn'
  | restartAgents =>
    have hrow : n ∈ db.nodes.updateAll (fun n => { n with agentRestartNonce := n.agentRestartNonce + 1 })
        fun _ => rfl := hn
    obtain ⟨o, ho, rfl⟩ := Table.mem_updateAll.mp hrow
    exact .restarted ho
  | traffic body =>
    have hrows : n ∈ (traffic db body).2.nodes := hn
    rw [nodes_traffic] at hrows
    exact .kept hrows

end Hawal.Panel
