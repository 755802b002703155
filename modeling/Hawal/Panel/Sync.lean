import Hawal.Panel.Engines
import Hawal.Panel.Routes

/-!
# The answer to an agent's sync

`GET /api/agent/sync` tells a node which halves of which tunnels to run. For hawal and backhaul
the server half runs at the tunnel's server node; paqet and gost are reversed: their server half
runs at the client node (`Tunnel.listener`). A core type that is none of the four is treated as
backhaul.

Here is where the halves are: in the answers that one database gives to all nodes, a running tunnel
between two nodes has one server half and one client half (`entriesAt_halves`), and a tunnel that is
not running has none.
-/

namespace Hawal.Panel

open Hawal.Lib Hawal.Lib.Python

/-- The two halves of a tunnel. -/
inductive Role where
  | server
  | client
  deriving DecidableEq, Repr

/-- What an agent is told to run. -/
inductive Payload where
  | hawal (config : Fields)
  | backhaul (toml : Str)
  | paqet (corePort : ℤ) (ports : Option Json) (yaml : Str)
  | gost (command : List Str)

/-- One entry of an answer. -/
structure Entry where
  tunnelId : Text
  role : Role
  payload : Payload
  restartNonce : ℤ

/-- An entry for the tunnel. -/
def Tunnel.entry (t : Tunnel) (role : Role) (payload : Payload) : Entry :=
  { tunnelId := t.id, role := role, payload := payload, restartNonce := t.restartNonce }

/-- The address of a node, or of this machine when there is no such node. -/
def Db.nodeIp (db : Db) (id : Text) : Str :=
  match db.getNode id with
  | some n => n.ip.val
  | none => str "127.0.0.1"

variable (repr : Json → Str)

/-- What the loop of `GET /api/agent/sync` adds for one tunnel; `none` when it raises. -/
def syncEntry (db : Db) (node : Node) (t : Tunnel) : Option (Option Entry) :=
  if t.status ≠ text "running" then some none
  else if t.coreType = text "paqet" then
    if t.clientNodeId = node.id then
      some (some (t.entry .server (.paqet t.corePort none (generatePaqetServerConfig t))))
    else if t.serverNodeId = node.id then
      (generatePaqetClientConfig repr t (db.nodeIp t.clientNodeId)).map fun yaml =>
        some (t.entry .client (.paqet t.corePort (some t.ports) yaml))
    else some none
  else if t.coreType = text "gost" then
    if t.clientNodeId = node.id then
      some (some (t.entry .server (.gost (generateGostServerCommand t))))
    else if t.serverNodeId = node.id then
      (generateGostClientCommand repr t (db.nodeIp t.clientNodeId)).map fun command =>
        some (t.entry .client (.gost command))
    else some none
  else if t.serverNodeId = node.id then
    if t.coreType = text "hawal" then
      some (some (t.entry .server (.hawal (generateHawalCoreServerConfig t))))
    else
      (generateServerConfig repr t).map fun toml => some (t.entry .server (.backhaul toml))
  else if t.clientNodeId = node.id then
    if t.coreType = text "hawal" then
      some (some (t.entry .client (.hawal (generateHawalCoreClientConfig t (db.nodeIp t.serverNodeId)))))
    else
      some (some (t.entry .client (.backhaul (generateClientConfig t (db.nodeIp t.serverNodeId)))))
  else some none

/-- The loop over the tunnels; `none` when it raises. -/
def syncConfigs (db : Db) (node : Node) : List Tunnel → Option (List Entry)
  | [] => some []
  | t :: ts => do
    let e ← syncEntry repr db node t
    let es ← syncConfigs db node ts
    some (e.toList ++ es)

/-- `GET /api/agent/sync`: the entries and the nonce of the node. -/
def agentSync (db : Db) (token : Text) : Except Failure (List Entry × ℤ) :=
  match db.getNodeByToken token with
  | none => .error (.refused 401 (str "unauthorized"))
  | some node => do
    let es ← orRaise (syncConfigs repr db node db.listTunnels)
    .ok (es, node.agentRestartNonce)

/-! ### Where the halves run -/

/-- The engine runs its server half at the client node. -/
def Tunnel.Reversed (t : Tunnel) : Prop := t.coreType = text "paqet" ∨ t.coreType = text "gost"

instance (t : Tunnel) : Decidable t.Reversed := inferInstanceAs (Decidable (_ ∨ _))

/-- The node that runs the server half. -/
def Tunnel.listener (t : Tunnel) : Text := if t.Reversed then t.clientNodeId else t.serverNodeId

/-- The node that runs the client half. -/
def Tunnel.dialer (t : Tunnel) : Text := if t.Reversed then t.serverNodeId else t.clientNodeId

/-- The tunnel is to run. -/
def Tunnel.Running (t : Tunnel) : Prop := t.status = text "running"

instance (t : Tunnel) : Decidable t.Running := inferInstanceAs (Decidable (_ = _))

/-! ### One tunnel -/

theorem syncEntry_of_not_running {db : Db} {node : Node} {t : Tunnel} (h : ¬ t.Running) :
    syncEntry repr db node t = some none := if_pos h

/-- What runs at the listener. -/
def serverPayload (t : Tunnel) : Option Payload :=
  if t.coreType = text "paqet" then some (.paqet t.corePort none (generatePaqetServerConfig t))
  else if t.coreType = text "gost" then some (.gost (generateGostServerCommand t))
  else if t.coreType = text "hawal" then some (.hawal (generateHawalCoreServerConfig t))
  else (generateServerConfig repr t).map .backhaul

/-- What runs at the dialer. -/
def clientPayload (t : Tunnel) (ip : Str) : Option Payload :=
  if t.coreType = text "paqet" then
    (generatePaqetClientConfig repr t ip).map fun yaml => .paqet t.corePort (some t.ports) yaml
  else if t.coreType = text "gost" then (generateGostClientCommand repr t ip).map .gost
  else if t.coreType = text "hawal" then some (.hawal (generateHawalCoreClientConfig t ip))
  else some (.backhaul (generateClientConfig t ip))

/-- The branches of the four engines in one form. -/
theorem syncEntry_of_running {db : Db} {node : Node} {t : Tunnel} (hrun : t.Running) :
    syncEntry repr db node t =
      if t.listener = node.id then (serverPayload repr t).map fun p => some (t.entry .server p)
      else if t.dialer = node.id then
        (clientPayload repr t (db.nodeIp t.listener)).map fun p => some (t.entry .client p)
      else some none := by
  have hgp : text "gost" ≠ text "paqet" := by decide
  have hstatus : ¬ t.status ≠ text "running" := not_not_intro hrun
  unfold syncEntry
  rw [if_neg hstatus]
  by_cases hp : t.coreType = text "paqet"
  · simp only [serverPayload, clientPayload, Tunnel.listener, Tunnel.dialer, Tunnel.Reversed, hp, if_true, true_or,
      Option.map_some, Option.map_map]
    rfl
  by_cases hg : t.coreType = text "gost"
  · simp only [serverPayload, clientPayload, Tunnel.listener, Tunnel.dialer, Tunnel.Reversed, hg, hgp, if_true,
      if_false, or_true, Option.map_some, Option.map_map]
    rfl
  · have hrev : ¬ t.Reversed := not_or_intro hp hg
    simp only [serverPayload, clientPayload, Tunnel.listener, Tunnel.dialer, if_neg hp, if_neg hg, if_neg hrev]
    by_cases hh : t.coreType = text "hawal"
    · simp only [if_pos hh, Option.map_some]
    · simp only [if_neg hh, Option.map_some, Option.map_map]
      rfl

theorem generateServerConfig_isSome {t : Tunnel} {ports : List Json} (hports : t.ports.iter = some ports) :
    ∃ toml, generateServerConfig repr t = some toml := by
  unfold generateServerConfig
  rw [hports]
  exact ⟨_, rfl⟩

theorem generatePaqetClientConfig_isSome {t : Tunnel} {ports : List Json} (hports : t.ports.iter = some ports)
    (ip : Str) : ∃ yaml, generatePaqetClientConfig repr t ip = some yaml := by
  unfold generatePaqetClientConfig parsePortsList
  rw [hports]
  exact ⟨_, rfl⟩

theorem generateGostClientCommand_isSome {t : Tunnel} {ports : List Json} (hports : t.ports.iter = some ports)
    (ip : Str) : ∃ command, generateGostClientCommand repr t ip = some command := by
  unfold generateGostClientCommand
  rw [hports]
  exact ⟨_, rfl⟩

/-- With ports that can be looped over there is a server half. -/
theorem exists_serverPayload {t : Tunnel} {ports : List Json} (hports : t.ports.iter = some ports) :
    ∃ p, serverPayload repr t = some p := by
  unfold serverPayload
  split_ifs
  · exact ⟨_, rfl⟩
  · exact ⟨_, rfl⟩
  · exact ⟨_, rfl⟩
  · obtain ⟨toml, htoml⟩ := generateServerConfig_isSome repr hports
    exact ⟨.backhaul toml, by rw [htoml]; rfl⟩

/-- And a client half. -/
theorem exists_clientPayload {t : Tunnel} {ports : List Json} (hports : t.ports.iter = some ports) (ip : Str) :
    ∃ p, clientPayload repr t ip = some p := by
  unfold clientPayload
  split_ifs
  · obtain ⟨yaml, hyaml⟩ := generatePaqetClientConfig_isSome repr hports ip
    exact ⟨.paqet t.corePort (some t.ports) yaml, by rw [hyaml]; rfl⟩
  · obtain ⟨command, hcommand⟩ := generateGostClientCommand_isSome repr hports ip
    exact ⟨.gost command, by rw [hcommand]; rfl⟩
  · exact ⟨_, rfl⟩
  · exact ⟨_, rfl⟩

/-- An entry for a tunnel has the tunnel's id and nonce, and its role says which end the node is. -/
theorem syncEntry_eq_some {db : Db} {node : Node} {t : Tunnel} {e : Entry}
    (h : syncEntry repr db node t = some (some e)) :
    t.Running ∧ e.tunnelId = t.id ∧ e.restartNonce = t.restartNonce ∧
      (e.role = .server ∧ t.listener = node.id ∨ e.role = .client ∧ t.listener ≠ node.id ∧ t.dialer = node.id) := by
  by_cases hrun : t.Running
  · rw [syncEntry_of_running repr hrun] at h
    split at h
    · rename_i hl
      obtain ⟨p, -, hp⟩ := Option.map_eq_some_iff.mp h
      cases hp
      exact ⟨hrun, rfl, rfl, .inl ⟨rfl, hl⟩⟩
    · rename_i hl
      split at h
      · rename_i hd
        obtain ⟨p, -, hp⟩ := Option.map_eq_some_iff.mp h
        cases hp
        exact ⟨hrun, rfl, rfl, .inr ⟨rfl, hl, hd⟩⟩
      · cases h
  · rw [syncEntry_of_not_running repr hrun] at h
    cases h

/-- With ports that can be looped over no entry raises. -/
theorem exists_syncEntry (db : Db) (node : Node) {t : Tunnel} {ports : List Json} (hports : t.ports.iter = some ports) :
    ∃ e, syncEntry repr db node t = some e := by
  by_cases hrun : t.Running
  · rw [syncEntry_of_running repr hrun]
    obtain ⟨p, hp⟩ := exists_serverPayload repr hports
    obtain ⟨q, hq⟩ := exists_clientPayload repr hports (db.nodeIp t.listener)
    rw [hp, hq]
    split
    · exact ⟨_, rfl⟩
    split
    · exact ⟨_, rfl⟩
    · exact ⟨_, rfl⟩
  · exact ⟨none, syncEntry_of_not_running repr hrun⟩

/-! ### The loop -/

/-- The entries of an answer that are about one tunnel. -/
def entriesOf (id : Text) (es : List Entry) : List Entry := es.filter fun e => decide (e.tunnelId = id)

theorem exists_syncConfigs (db : Db) (node : Node) {ts : List Tunnel}
    (hports : ∀ t ∈ ts, ∃ ports, t.ports.iter = some ports) : ∃ es, syncConfigs repr db node ts = some es := by
  induction ts with
  | nil => exact ⟨[], rfl⟩
  | cons t ts ih =>
    obtain ⟨ports, hp⟩ := hports t List.mem_cons_self
    obtain ⟨e, he⟩ := exists_syncEntry repr db node hp
    obtain ⟨es, hes⟩ := ih fun t ht => hports t (List.mem_cons_of_mem _ ht)
    exact ⟨e.toList ++ es, by rw [syncConfigs, he, hes]; rfl⟩

theorem syncConfigs_cons {db : Db} {node : Node} {t : Tunnel} {ts : List Tunnel} {es : List Entry} :
    syncConfigs repr db node (t :: ts) = some es ↔
      ∃ e rest, syncEntry repr db node t = some e ∧ syncConfigs repr db node ts = some rest ∧
        es = e.toList ++ rest := by
  simp only [syncConfigs, Option.bind_eq_bind, Option.bind_eq_some_iff, Option.some.injEq]
  constructor
  · rintro ⟨e, he, rest, hrest, rfl⟩
    exact ⟨e, rest, he, hrest, rfl⟩
  · rintro ⟨e, rest, he, hrest, rfl⟩
    exact ⟨e, he, rest, hrest, rfl⟩

/-- Every entry is about a row. -/
theorem mem_syncConfigs {db : Db} {node : Node} {ts : List Tunnel} :
    ∀ {es : List Entry}, syncConfigs repr db node ts = some es → ∀ e ∈ es,
      ∃ t ∈ ts, syncEntry repr db node t = some (some e) := by
  induction ts with
  | nil =>
    intro es h e he
    cases h
    cases he
  | cons t ts ih =>
    intro es h e he
    obtain ⟨o, rest, ho, hrest, rfl⟩ := (syncConfigs_cons repr).mp h
    rcases List.mem_append.mp he with he | he
    · rw [Option.mem_toList] at he
      cases he
      exact ⟨t, List.mem_cons_self, ho⟩
    · obtain ⟨t', ht', hentry⟩ := ih hrest e he
      exact ⟨t', List.mem_cons_of_mem _ ht', hentry⟩

/-- The entries about a row are the one that the loop adds for it. -/
theorem entriesOf_syncConfigs {db : Db} {node : Node} {ts : List Tunnel} :
    ∀ {es : List Entry}, (ts.map Tunnel.id).Nodup → syncConfigs repr db node ts = some es → ∀ t ∈ ts,
      ∃ e, syncEntry repr db node t = some e ∧ entriesOf t.id es = e.toList := by
  induction ts with
  | nil =>
    intro es _ _ t ht
    cases ht
  | cons t₀ ts ih =>
    intro es hnodup h t ht
    obtain ⟨o, rest, ho, hrest, rfl⟩ := (syncConfigs_cons repr).mp h
    rw [List.map_cons, List.nodup_cons] at hnodup
    obtain ⟨hnot, hnodup⟩ := hnodup
    rw [entriesOf, List.filter_append]
    -- the entry of a row has the row's id
    have hhead : ∀ e ∈ o.toList, e.tunnelId = t₀.id := by
      intro e he
      rw [Option.mem_toList] at he
      cases he
      exact (syncEntry_eq_some repr ho).2.1
    rcases List.mem_cons.mp ht with rfl | ht
    · refine ⟨o, ho, ?_⟩
      have hrest : rest.filter (fun e => decide (e.tunnelId = t.id)) = [] := by
        refine List.filter_eq_nil_iff.mpr fun e he => ?_
        obtain ⟨t', ht', hentry⟩ := mem_syncConfigs repr hrest e he
        rw [decide_eq_true_eq, (syncEntry_eq_some repr hentry).2.1]
        exact fun hid => hnot (hid ▸ List.mem_map_of_mem ht')
      rw [hrest, List.append_nil, List.filter_eq_self.mpr]
      exact fun e he => decide_eq_true (hhead e he)
    · obtain ⟨e, he, hent⟩ := ih hnodup hrest t ht
      refine ⟨e, he, ?_⟩
      have hnil : o.toList.filter (fun e => decide (e.tunnelId = t.id)) = [] := by
        refine List.filter_eq_nil_iff.mpr fun e he => ?_
        rw [decide_eq_true_eq, hhead e he]
        exact fun hid => hnot (hid ▸ List.mem_map_of_mem ht)
      rw [hnil, List.nil_append]
      exact hent

/-! ### The answers to all nodes -/

theorem getNodeByToken_token {db : Db} {n : Node} (hn : n ∈ db.nodes) : db.getNodeByToken n.token = some n := by
  cases hf : db.getNodeByToken n.token with
  | none =>
    have hno : ¬ decide (n.token = n.token) = true := List.find?_eq_none.mp hf n hn
    exact absurd (decide_eq_true rfl) hno
  | some m =>
    have hm : m ∈ db.nodes := List.mem_of_find?_eq_some hf
    have htok : m.token = n.token := of_decide_eq_true (List.find?_some hf :)
    rw [db.tokens m hm n hn htok]

theorem agentSync_eq_ok {db : Db} {n : Node} (hn : n ∈ db.nodes) {es : List Entry} {k : ℤ} :
    agentSync repr db n.token = .ok (es, k) ↔
      syncConfigs repr db n db.listTunnels = some es ∧ k = n.agentRestartNonce := by
  simp only [agentSync, getNodeByToken_token hn, bind_eq_ok, orRaise_eq_ok]
  constructor
  · rintro ⟨es', hes, h⟩
    cases h
    exact ⟨hes, rfl⟩
  · rintro ⟨hes, rfl⟩
    exact ⟨es, hes, rfl⟩

/-- The entries about a tunnel in the answer to a node. -/
def Db.entriesAt (db : Db) (n : Node) (id : Text) : List Entry :=
  match agentSync repr db n.token with
  | .ok (es, _) => entriesOf id es
  | .error _ => []

/-- In an answer a row has the entry that the loop adds for it. -/
theorem entriesAt_eq {db : Db} (hports : ∀ t ∈ db.tunnels, ∃ ports, t.ports.iter = some ports) {n : Node}
    (hn : n ∈ db.nodes) {t : Tunnel} (ht : t ∈ db.tunnels) :
    ∃ e, syncEntry repr db n t = some e ∧ db.entriesAt repr n t.id = e.toList := by
  obtain ⟨es, hes⟩ := exists_syncConfigs repr db n hports
  obtain ⟨e, he, hent⟩ := entriesOf_syncConfigs repr db.tunnels.nodup hes t ht
  refine ⟨e, he, ?_⟩
  rw [Db.entriesAt, (agentSync_eq_ok repr hn).mpr ⟨hes, rfl⟩]
  exact hent

theorem nodeIp_id {db : Db} {n : Node} (hn : n ∈ db.nodes) : db.nodeIp n.id = n.ip.val := by
  have hf : db.getNode n.id = some n := Table.find_eq_some.mpr ⟨hn, rfl⟩
  rw [Db.nodeIp, hf]

/-- **The halves of a running tunnel** between the nodes `l` and `d`, of which `l` listens: its server half is in the
answer to `l`, its client half in that to `d`, and no other answer has any. -/
theorem entriesAt_halves {db : Db} (hports : ∀ t ∈ db.tunnels, ∃ ports, t.ports.iter = some ports) {t : Tunnel}
    (ht : t ∈ db.tunnels) (hrun : t.Running) {l d : Node} (hl : l ∈ db.nodes) (hd : d ∈ db.nodes)
    (hlid : t.listener = l.id) (hdid : t.dialer = d.id) (hne : l ≠ d) :
    ∃ p q, serverPayload repr t = some p ∧ clientPayload repr t l.ip.val = some q ∧
      db.entriesAt repr l t.id = [t.entry .server p] ∧ db.entriesAt repr d t.id = [t.entry .client q] ∧
      ∀ n ∈ db.nodes, n ≠ l → n ≠ d → db.entriesAt repr n t.id = [] := by
  obtain ⟨ports, hp⟩ := hports t ht
  obtain ⟨p, hpay⟩ := exists_serverPayload repr hp
  obtain ⟨q, hqay⟩ := exists_clientPayload repr hp l.ip.val
  have hids : ∀ {n m : Node}, n ∈ db.nodes → m ∈ db.nodes → n ≠ m → n.id ≠ m.id :=
    fun hn hm hnm hid => hnm (Table.eq_of_key hn hm hid)
  refine ⟨p, q, hpay, hqay, ?_, ?_, ?_⟩
  · obtain ⟨e, he, hent⟩ := entriesAt_eq repr hports hl ht
    rw [syncEntry_of_running repr hrun, if_pos hlid, hpay] at he
    cases he
    exact hent
  · obtain ⟨e, he, hent⟩ := entriesAt_eq repr hports hd ht
    rw [syncEntry_of_running repr hrun, if_neg (hlid ▸ hids hl hd hne), if_pos hdid, hlid, nodeIp_id hl, hqay] at he
    cases he
    exact hent
  · intro n hn hnl hnd
    obtain ⟨e, he, hent⟩ := entriesAt_eq repr hports hn ht
    rw [syncEntry_of_running repr hrun, if_neg (hlid ▸ hids hl hn hnl.symm),
      if_neg (hdid ▸ hids hd hn hnd.symm)] at he
    cases he
    exact hent

/-- The ends of a tunnel between two nodes: one listens, and the other dials. -/
theorem exists_ends {t : Tunnel} {s c : Node} (hs : s.id = t.serverNodeId) (hc : c.id = t.clientNodeId) :
    ∃ l d, (l = s ∧ d = c ∨ l = c ∧ d = s) ∧ t.listener = l.id ∧ t.dialer = d.id := by
  by_cases hrev : t.Reversed
  · refine ⟨c, s, .inr ⟨rfl, rfl⟩, ?_, ?_⟩
    · rw [Tunnel.listener, if_pos hrev, hc]
    · rw [Tunnel.dialer, if_pos hrev, hs]
  · refine ⟨s, c, .inl ⟨rfl, rfl⟩, ?_, ?_⟩
    · rw [Tunnel.listener, if_neg hrev, hs]
    · rw [Tunnel.dialer, if_neg hrev, hc]

/-! ### Two nodes and a tunnel -/

/-- The node where the tunnel of the example is entered. -/
def entryNode : Node :=
  { id := text "node_a", name := text "entry", ip := text "10.0.0.1", role := text "iran"
    token := text "ta", agentRestartNonce := 0 }

/-- The node where it comes out. -/
def exitNode : Node :=
  { id := text "node_b", name := text "exit", ip := text "10.0.0.2", role := text "kharej"
    token := text "tb", agentRestartNonce := 0 }

/-- A Paqet tunnel between the two. -/
def paqetTunnel : Tunnel :=
  { id := text "tun_1", name := text "t", coreType := text "paqet"
    serverNodeId := text "node_a", clientNodeId := text "node_b", corePort := 3090
    transport := text "kcp", ports := .list [.str (str "443")], token := text "s"
    status := text "running", nodelay := 1, snappy := 1, muxCon := 8, keepalive := 75
    channelSize := 2048, restartNonce := 0, bytesIn := .integer 0, bytesOut := .integer 0 }

/-- The database with these rows. -/
def pairDb : Db where
  nodes := ⟨[entryNode, exitNode], by decide⟩
  tunnels := ⟨[paqetTunnel], by decide⟩
  tokens := by
    show ∀ r ∈ [entryNode, exitNode], ∀ r' ∈ [entryNode, exitNode], r.token = r'.token → r = r'
    decide

end Hawal.Panel
