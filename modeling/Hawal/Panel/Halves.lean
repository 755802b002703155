import Hawal.Panel.BackhaulToml
import Hawal.Panel.PaqetYaml
import Hawal.Panel.Sync

/-!
# What the halves of a tunnel say

An agent is told what to run by an object, a text in TOML, a text in YAML or a command line. `Payload.half` reads it
as the core does: where the half listens or what it dials, with which secret, and the parameters of the carrier.

* `sync_matching_halves` — the answers that one database gives to all nodes fit together: a running tunnel between two
  nodes has one server half and one client half, and when its strings are `Plain`, the client half dials the node that
  has the server half at the port where that listens, with the same secret and parameters.

The generators for Backhaul, Paqet and GOST put strings into their texts as they are, and what is in these strings can
say something else (`pastedPorts_mismatched`). `Plain` says that there is nothing in them but text.
-/

namespace Hawal.Panel

open Hawal.Lib Hawal.Lib.Python

open Toml (Basic)

/-! ### Reading the halves -/

/-- The parameters that both ends must have alike. -/
inductive Carrier where
  | hawal (padding : Bool)
  | backhaul (transport : Str) (muxCon : ℤ) (snappy : Bool)
  | paqet (conn : ℤ) (mode block : Str) (mtu : ℤ)
  | gost (scheme : Str)
  deriving DecidableEq

/-- One end of a tunnel: where it listens or what it dials, the secret, and how. -/
structure Half where
  address : Str
  secret : Str
  carrier : Carrier
  deriving DecidableEq

/-- The name of a half in configurations. -/
def Role.name : Role → Str
  | .server => str "server"
  | .client => str "client"

/-- The half in an object for the Hawal core. -/
def readHawal (role : Role) (config : Fields) : Option Half :=
  let address := match role with
    | .server => config.get "bind_addr" .null
    | .client => config.get "connect_addr" .null
  match config.get "mode" .null, address, config.get "token" .null, config.get "enable_padding" .null with
  | .str mode, .str address, .str secret, .bool padding =>
    if mode = role.name then some ⟨address, secret, .hawal padding⟩ else none
  | _, _, _, _ => none

/-- The half in the TOML for Backhaul: in the table of its role. -/
def readBackhaul (role : Role) (doc : Toml.Document) : Option Half :=
  let address := match role with
    | .server => doc.get role.name (str "bind_addr")
    | .client => doc.get role.name (str "remote_addr")
  match address, doc.get role.name (str "token"), doc.get role.name (str "transport"),
    doc.get role.name (str "mux_con"), doc.get role.name (str "snappy") with
  | some (.string address), some (.string secret), some (.string transport), some (.int muxCon), some (.bool snappy) =>
    some ⟨address, secret, .backhaul transport muxCon snappy⟩
  | _, _, _, _, _ => none

/-- The address in the YAML for Paqet. A server has its port three times: where it listens, for its own packets, and
beside the text. -/
def readPaqetAddress (role : Role) (corePort : ℤ) (doc : Yaml.Document) : Option Str :=
  match role with
  | .server =>
    if doc.get (PaqetYaml.place ["listen", "addr"]) = some (.string (hostPort [] corePort)) ∧
        doc.get (PaqetYaml.place ["network", "ipv4", "addr"]) =
          some (.string (hostPort (marker "LOCAL_IP") corePort)) then
      some (hostPort [] corePort)
    else none
  | .client =>
    match doc.get (PaqetYaml.place ["server", "addr"]) with
    | some (.string address) => some address
    | _ => none

/-- The half in the YAML for Paqet. -/
def readPaqet (role : Role) (corePort : ℤ) (doc : Yaml.Document) : Option Half :=
  match doc.get (PaqetYaml.place ["role"]), readPaqetAddress role corePort doc,
    doc.get (PaqetYaml.place ["transport", "kcp", "key"]), doc.get (PaqetYaml.place ["transport", "conn"]),
    doc.get (PaqetYaml.place ["transport", "kcp", "mode"]), doc.get (PaqetYaml.place ["transport", "kcp", "block"]),
    doc.get (PaqetYaml.place ["transport", "kcp", "mtu"]) with
  | some (.string name), some address, some (.string secret), some (.int conn), some (.string mode),
    some (.string block), some (.int mtu) =>
    if name = role.name then some ⟨address, secret, .paqet conn mode block mtu⟩ else none
  | _, _, _, _, _, _, _ => none

/-- The values of a flag on a command line. -/
def flagValues (flag : Str) : List Str → List Str
  | f :: v :: rest => if f = flag then v :: flagValues flag rest else flagValues flag rest
  | _ => []

/-- The flag of a relay address: a server listens there, a client forwards to it. -/
def Role.flag : Role → Str
  | .server => str "-L"
  | .client => str "-F"

/-- The half in the arguments for GOST. -/
def readGost (role : Role) (command : List Str) : Option Half :=
  match flagValues role.flag command with
  | [url] =>
    (readLogin url).bind fun login =>
      if str "relay+" <+: login.1 then some ⟨login.2.2, login.2.1, .gost (login.1.drop 6)⟩ else none
  | _ => none

/-- **The half that a payload is.** -/
def Payload.half (role : Role) : Payload → Option Half
  | .hawal config => readHawal role config
  | .backhaul toml => (Toml.read toml).bind (readBackhaul role)
  | .paqet corePort _ yaml => (Yaml.read yaml).bind (readPaqet role corePort)
  | .gost command => readGost role command

/-- **The halves fit**, when the server half runs at `ip`: the client half dials that address, at the port where the
server half listens, and they have one secret and one carrier. -/
structure Half.Fits (ip : Str) (server client : Half) : Prop where
  address : ∃ host port, server.address = hostPort host port ∧ client.address = hostPort ip port
  secret : client.secret = server.secret
  carrier : client.carrier = server.carrier

/-! ### What they are meant to say -/

/-- The parameters of a tunnel. -/
def Tunnel.carrier (t : Tunnel) : Carrier :=
  if t.coreType = text "paqet" then .paqet t.muxCon (str "fast") (str "aes-128-gcm") (paqetMtu t)
  else if t.coreType = text "gost" then .gost (gostTransport t)
  else if t.coreType = text "hawal" then .hawal (t.snappy ≠ 0)
  else .backhaul t.transport.val t.muxCon (t.snappy ≠ 0)

/-- The half of the tunnel that listens at, or dials, the host. -/
def Tunnel.half (t : Tunnel) (host : Str) : Half := ⟨hostPort host t.corePort, t.token.val, t.carrier⟩

/-- Where the server half listens. -/
def Tunnel.bindHost (t : Tunnel) : Str := if t.Reversed then [] else str "0.0.0.0"

theorem half_fits (t : Tunnel) (host ip : Str) : (t.half host).Fits ip (t.half ip) where
  address := ⟨host, t.corePort, rfl, rfl⟩
  secret := rfl
  carrier := rfl

variable (repr : Json → Str)

/-- The rules, as the generators show them. -/
def Tunnel.rules (t : Tunnel) : List Str := (t.ports.iter.getD []).map fun p => p.shown repr

/-- **There is nothing but text** in the strings of a tunnel that its generators put into the halves, nor in the
address of the node that listens. -/
def Tunnel.Plain (t : Tunnel) (ip : Str) : Prop :=
  if t.coreType = text "paqet" then
    Yaml.Plain t.token.val ∧ Yaml.Plain ip ∧ ∀ f ∈ (t.rules repr).filterMap parsePort, Yaml.Plain f.1 ∧ Yaml.Plain f.2
  else if t.coreType = text "gost" then (∀ c ∈ t.token.val, Scalar c) ∧ ∀ c ∈ ip, isHostChar c = true
  else if t.coreType = text "hawal" then True
  else Basic t.transport.val ∧ Basic t.token.val ∧ Basic ip ∧ ∀ rule ∈ t.rules repr, Basic rule

instance (t : Tunnel) (ip : Str) : Decidable (t.Plain repr ip) := by
  delta Tunnel.Plain Yaml.Plain Basic
  infer_instance

/-! ### The four engines -/

section Engines

variable {repr} {t : Tunnel} {ip : Str}

theorem rules_of_iter {ports : List Json} (hports : t.ports.iter = some ports) :
    t.rules repr = ports.map fun p => p.shown repr := by
  rw [Tunnel.rules, hports]
  rfl

theorem portsToml_rules {ports : List Json} (hports : t.ports.iter = some ports) :
    portsToml repr ports = portsToml repr ((t.rules repr).map .str) := by
  rw [rules_of_iter hports, portsToml, portsToml, List.map_map, List.map_map]
  rfl

theorem carrier_paqet (hp : t.coreType = text "paqet") :
    t.carrier = .paqet t.muxCon (str "fast") (str "aes-128-gcm") (paqetMtu t) := if_pos hp

theorem carrier_gost (hg : t.coreType = text "gost") : t.carrier = .gost (gostTransport t) := by
  rw [Tunnel.carrier, hg, if_neg (by decide), if_pos rfl]

theorem carrier_hawal (hh : t.coreType = text "hawal") : t.carrier = .hawal (t.snappy ≠ 0) := by
  rw [Tunnel.carrier, hh, if_neg (by decide), if_neg (by decide), if_pos rfl]

theorem readHawal_server (hh : t.coreType = text "hawal") :
    readHawal .server (generateHawalCoreServerConfig t) = some (t.half (str "0.0.0.0")) := by
  rw [Tunnel.half, carrier_hawal hh]
  rfl

theorem readHawal_client (hh : t.coreType = text "hawal") :
    readHawal .client (generateHawalCoreClientConfig t ip) = some (t.half ip) := by
  rw [Tunnel.half, carrier_hawal hh]
  rfl

/-- The secret, the carrier and the address of a Backhaul tunnel are in its two documents. -/
theorem readBackhaul_server (rules : List Str) (hcarrier : t.carrier = .backhaul t.transport.val t.muxCon (t.snappy ≠ 0)) :
    readBackhaul .server (BackhaulToml.serverDocument t rules) = some (t.half (str "0.0.0.0")) := by
  rw [Tunnel.half, hcarrier]
  rfl

theorem readBackhaul_client (hcarrier : t.carrier = .backhaul t.transport.val t.muxCon (t.snappy ≠ 0)) :
    readBackhaul .client (BackhaulToml.clientDocument t ip) = some (t.half ip) := by
  rw [Tunnel.half, hcarrier]
  rfl

theorem readPaqet_server (hp : t.coreType = text "paqet") :
    readPaqet .server t.corePort (PaqetYaml.serverDocument t) = some (t.half []) := by
  have haddr : readPaqetAddress .server t.corePort (PaqetYaml.serverDocument t) = some (hostPort [] t.corePort) :=
    if_pos ⟨rfl, rfl⟩
  rw [Tunnel.half, carrier_paqet hp, readPaqet, haddr]
  rfl

/-- No setting of a forward is at a place of the mappings. -/
theorem get_forwardSettings {keys : List String} (hkeys : keys.head? ≠ some "forward") (doc : Yaml.Document)
    (forwards : List (Str × Str)) (n : ℕ) :
    Yaml.Document.get (PaqetYaml.forwardSettings n forwards ++ doc) (PaqetYaml.place keys) =
      Yaml.Document.get doc (PaqetYaml.place keys) := by
  refine Yaml.Document.get_append ?_
  -- each begins with another key
  have hne : ∀ path : Yaml.Path, path.head? = some (.key (str "forward")) → path ≠ PaqetYaml.place keys := by
    rintro path hpath rfl
    cases keys with
    | nil => cases hpath
    | cons k keys =>
      have hk : str k = str "forward" := Yaml.Step.key.inj (Option.some.inj hpath)
      exact hkeys (congrArg some (str_inj.mp hk))
  induction forwards generalizing n with
  | nil => exact List.forall_mem_nil _
  | cons f fs ih =>
    refine List.forall_mem_append.mpr ⟨?_, ih (n + 1)⟩
    simp only [List.forall_mem_cons]
    exact ⟨hne _ rfl, hne _ rfl, hne _ rfl, List.forall_mem_nil _⟩

theorem readPaqet_client (hp : t.coreType = text "paqet") (corePort : ℤ) (forwards : List (Str × Str)) :
    readPaqet .client corePort (PaqetYaml.clientDocument t ip forwards) = some (t.half ip) := by
  have hskip : ∀ keys : List String, keys.head? ≠ some "forward" →
      (PaqetYaml.clientDocument t ip forwards).get (PaqetYaml.place keys) =
        (PaqetYaml.clientDocument t ip []).get (PaqetYaml.place keys) := by
    intro keys hkeys
    rw [PaqetYaml.clientDocument, PaqetYaml.clientDocument, List.append_assoc, List.append_assoc]
    refine Yaml.Document.get_append_congr _ ?_
    rw [get_forwardSettings hkeys, get_forwardSettings hkeys]
  rw [Tunnel.half, carrier_paqet hp, readPaqet, readPaqetAddress, hskip ["role"] (by decide),
    hskip ["server", "addr"] (by decide), hskip ["transport", "kcp", "key"] (by decide),
    hskip ["transport", "conn"] (by decide), hskip ["transport", "kcp", "mode"] (by decide),
    hskip ["transport", "kcp", "block"] (by decide), hskip ["transport", "kcp", "mtu"] (by decide)]
  rfl

theorem flagValues_append {flag : Str} {fs : List (List Str)} {rest : List Str}
    (h : ∀ f ∈ fs, f = [] ∨ ∃ v w, f = [str "-L", v, str "-L", w]) (hflag : flag ≠ str "-L") :
    flagValues flag (fs.flatten ++ rest) = flagValues flag rest := by
  induction fs with
  | nil => rfl
  | cons f fs ih =>
    rw [List.forall_mem_cons] at h
    rw [List.flatten_cons, List.append_assoc]
    rcases h.1 with rfl | ⟨v, w, rfl⟩
    · exact ih h.2
    · show flagValues flag (str "-L" :: v :: str "-L" :: w :: (fs.flatten ++ rest)) = _
      rw [flagValues, if_neg hflag.symm, flagValues, if_neg hflag.symm, ih h.2]

theorem gostForward_eq (rule : Str) : gostForward rule = [] ∨ ∃ v w, gostForward rule = [str "-L", v, str "-L", w] := by
  unfold gostForward
  split
  · exact .inl rfl
  split
  · exact .inl rfl
  dsimp only
  split_ifs
  · exact .inl rfl
  · exact .inr ⟨_, _, rfl⟩

theorem readGost_relay {role : Role} {command : List Str} {host : Str} (hg : t.coreType = text "gost")
    (hcommand : flagValues role.flag command = [relayUrl t host])
    (hsecret : ∀ c ∈ t.token.val, Scalar c) (hhost : ∀ c ∈ host, isHostChar c = true) :
    readGost role command = some (t.half host) := by
  have hscheme : gostTransport t ∈ [str "tls", str "ws", str "kcp", str "quic"] := by
    unfold gostTransport
    dsimp only
    split_ifs with h
    · exact h
    · exact List.mem_cons_self
  have hcolon : ∀ scheme ∈ [str "tls", str "ws", str "kcp", str "quic"], ':'.toNat ∉ str "relay+" ++ scheme := by decide
  have hdecimal : ∀ c ∈ decimal t.corePort, isHostChar c = true := by
    intro c hc
    rcases mem_decimal hc with rfl | ⟨hlo, hhi⟩
    · decide
    · refine isHostChar_of_isUnreserved ?_
      simp [isUnreserved, hlo, hhi]
  have haddress : ∀ c ∈ hostPort host t.corePort, isHostChar c = true :=
    List.forall_mem_append.mpr ⟨List.forall_mem_append.mpr ⟨hhost, by decide⟩, hdecimal⟩
  have hlogin : readLogin (relayUrl t host) =
      some (str "relay+" ++ gostTransport t, t.token.val, hostPort host t.corePort) := by
    have huser : ∀ c ∈ str "hawal", isUnreserved c = true := by decide
    rw [← readLogin_quote (hcolon _ hscheme) huser hsecret haddress, relayUrl, relay]
    simp only [List.append_assoc]
    rfl
  rw [readGost, hcommand]
  dsimp only
  rw [hlogin, Option.bind_some, if_pos (List.prefix_append _ _), Tunnel.half, carrier_gost hg]
  rfl

theorem read_generateServerConfig {ports : List Json} {toml : Str} (hports : t.ports.iter = some ports)
    (htoml : generateServerConfig repr t = some toml) (htransport : Basic t.transport.val) (htoken : Basic t.token.val)
    (hrules : ∀ rule ∈ t.rules repr, Basic rule) :
    Toml.read toml = some (BackhaulToml.serverDocument t (t.rules repr)) := by
  have htext : generateServerConfig repr t =
      some (BackhaulToml.tableText (str "server") (BackhaulToml.serverLines repr t (t.rules repr))) := by
    rw [generateServerConfig, hports, Option.bind_eq_bind, Option.bind_some, portsToml_rules hports]
    rfl
  rw [← Option.some.inj (htext.symm.trans htoml)]
  exact BackhaulToml.read_of_basic htransport htoken hrules

theorem parsePortsList_rules {parsed : List (Str × Str)} (h : parsePortsList repr t.ports = some parsed) :
    (t.rules repr).filterMap parsePort = parsed := by
  obtain ⟨ports, hports, rfl⟩ := Option.map_eq_some_iff.mp h
  rw [rules_of_iter hports, List.filterMap_map]
  rfl

theorem flagValues_client {command : List Str} (h : generateGostClientCommand repr t ip = some command) :
    flagValues (str "-F") command = [relayUrl t ip] := by
  obtain ⟨ports, -, h⟩ := Option.bind_eq_some_iff.mp h
  rw [← Option.some.inj h, List.flatMap_def]
  refine (flagValues_append ?_ (by decide)).trans rfl
  intro f hf
  obtain ⟨rule, -, rfl⟩ := List.mem_map.mp hf
  exact gostForward_eq _

/-- **What the server half says**, of a tunnel whose strings are plain. -/
theorem half_server {p : Payload} (hp : serverPayload repr t = some p) (hplain : t.Plain repr ip) :
    p.half .server = some (t.half t.bindHost) := by
  unfold serverPayload at hp
  unfold Tunnel.Plain at hplain
  split_ifs at hp hplain with hpaqet hgost hhawal
  · cases hp
    have hbind : t.bindHost = [] := if_pos (.inl hpaqet)
    rw [Payload.half, PaqetYaml.read_generatePaqetServerConfig hplain.1, hbind]
    exact readPaqet_server hpaqet
  · cases hp
    have hbind : t.bindHost = [] := if_pos (.inr hgost)
    rw [hbind]
    show readGost .server [str "-L", relayUrl t []] = _
    exact readGost_relay hgost rfl hplain.1 (List.forall_mem_nil _)
  · cases hp
    have hbind : t.bindHost = str "0.0.0.0" := if_neg (not_or_intro hpaqet hgost)
    rw [hbind]
    exact readHawal_server hhawal
  · obtain ⟨toml, htoml, rfl⟩ := Option.map_eq_some_iff.mp hp
    have hbind : t.bindHost = str "0.0.0.0" := if_neg (not_or_intro hpaqet hgost)
    have hcarrier : t.carrier = .backhaul t.transport.val t.muxCon (t.snappy ≠ 0) := by
      rw [Tunnel.carrier, if_neg hpaqet, if_neg hgost, if_neg hhawal]
    obtain ⟨ports, hports, -⟩ := Option.bind_eq_some_iff.mp htoml
    obtain ⟨htransport, htoken, -, hrules⟩ := hplain
    rw [Payload.half, read_generateServerConfig hports htoml htransport htoken hrules, hbind]
    exact readBackhaul_server (t.rules repr) hcarrier

/-- **What the client half says.** -/
theorem half_client {q : Payload} (hq : clientPayload repr t ip = some q) (hplain : t.Plain repr ip) :
    q.half .client = some (t.half ip) := by
  unfold clientPayload at hq
  unfold Tunnel.Plain at hplain
  split_ifs at hq hplain with hpaqet hgost hhawal
  · obtain ⟨yaml, hyaml, rfl⟩ := Option.map_eq_some_iff.mp hq
    obtain ⟨htoken, hip, hforwards⟩ := hplain
    obtain ⟨parsed, hparsed, -⟩ := Option.bind_eq_some_iff.mp hyaml
    have hread := PaqetYaml.read_generatePaqetClientConfig hparsed htoken hip (parsePortsList_rules hparsed ▸ hforwards)
    rw [hyaml] at hread
    rw [Payload.half, show Yaml.read yaml = _ from hread]
    exact readPaqet_client hpaqet t.corePort _
  · obtain ⟨command, hcommand, rfl⟩ := Option.map_eq_some_iff.mp hq
    show readGost .client command = _
    exact readGost_relay hgost (flagValues_client hcommand) hplain.1 hplain.2
  · cases hq
    exact readHawal_client hhawal
  · cases hq
    have hcarrier : t.carrier = .backhaul t.transport.val t.muxCon (t.snappy ≠ 0) := by
      rw [Tunnel.carrier, if_neg hpaqet, if_neg hgost, if_neg hhawal]
    obtain ⟨htransport, htoken, hip, -⟩ := hplain
    rw [Payload.half, (BackhaulToml.read_generateClientConfig_iff t ip).mpr ⟨hip, htransport, htoken⟩]
    exact readBackhaul_client hcarrier

end Engines

/-! ### The answers to all nodes -/

/-- **The answers fit together.** If all tunnels have lists of strings as ports, every node gets an
answer. A tunnel that is not running is in none of them. A running tunnel between two nodes is in
two of them, once in each, with one nonce: one of the nodes is to serve it, and the other is to dial
it. When there is nothing but text in the strings of the tunnel, it dials that node where it listens, with the same
secret and parameters, which are those of the tunnel. -/
theorem sync_matching_halves (db : Db)
    (hports : ∀ t ∈ db.tunnels, ∃ rules : List Str, t.ports = .list (rules.map .str)) :
    (∀ n ∈ db.nodes, ∃ es, agentSync repr db n.token = .ok (es, n.agentRestartNonce)) ∧
      (∀ t ∈ db.tunnels, ¬ t.Running → ∀ n ∈ db.nodes, db.entriesAt repr n t.id = []) ∧
      ∀ t ∈ db.tunnels, t.Running → ∀ s ∈ db.nodes, ∀ c ∈ db.nodes,
        s.id = t.serverNodeId → c.id = t.clientNodeId → s ≠ c →
        ∃ l d, (l = s ∧ d = c ∨ l = c ∧ d = s) ∧ l.id = t.listener ∧
          ∃ server client, db.entriesAt repr l t.id = [server] ∧ db.entriesAt repr d t.id = [client] ∧
            (∀ n ∈ db.nodes, n ≠ l → n ≠ d → db.entriesAt repr n t.id = []) ∧
            server.role = .server ∧ client.role = .client ∧ server.restartNonce = client.restartNonce ∧
            (t.Plain repr l.ip.val →
              ∃ a b, server.payload.half .server = some a ∧ client.payload.half .client = some b ∧
                a.Fits l.ip.val b ∧ a = t.half t.bindHost) := by
  have hiter : ∀ t ∈ db.tunnels, ∃ ports, t.ports.iter = some ports := by
    intro t ht
    obtain ⟨rules, hr⟩ := hports t ht
    exact ⟨rules.map .str, by rw [hr]; rfl⟩
  refine ⟨fun n hn => ?_, fun t ht hstop n hn => ?_, fun t ht hrun s hs c hc hsid hcid hne => ?_⟩
  · obtain ⟨es, hes⟩ := exists_syncConfigs repr db n hiter
    exact ⟨es, (agentSync_eq_ok repr hn).mpr ⟨hes, rfl⟩⟩
  · obtain ⟨e, he, hent⟩ := entriesAt_eq repr hiter hn ht
    rw [syncEntry_of_not_running repr hstop] at he
    cases he
    exact hent
  · obtain ⟨l, d, hends, hl, hd⟩ := exists_ends hsid hcid
    have hmem : l ∈ db.nodes ∧ d ∈ db.nodes ∧ l ≠ d := by
      rcases hends with ⟨rfl, rfl⟩ | ⟨rfl, rfl⟩
      · exact ⟨hs, hc, hne⟩
      · exact ⟨hc, hs, hne.symm⟩
    obtain ⟨p, q, hp, hq, hserver, hclient, hnone⟩ := entriesAt_halves repr hiter ht hrun hmem.1 hmem.2.1 hl hd hmem.2.2
    refine ⟨l, d, hends, hl.symm, t.entry .server p, t.entry .client q, hserver, hclient, hnone, rfl, rfl, rfl, ?_⟩
    intro hplain
    exact ⟨_, _, half_server hp hplain, half_client hq hplain, half_fits t _ _, rfl⟩

/-- The exit node serves the tunnel of the example and the entry node dials it. -/
theorem pairDb_halves :
    ∃ server client, pairDb.entriesAt (fun _ => []) exitNode (text "tun_1") = [server] ∧
      pairDb.entriesAt (fun _ => []) entryNode (text "tun_1") = [client] ∧
      ∃ a b, server.payload.half .server = some a ∧ client.payload.half .client = some b ∧ a.Fits (str "10.0.0.2") b := by
  have hports : ∀ t ∈ pairDb.tunnels, ∃ rules : List Str, t.ports = .list (rules.map .str) := by
    intro t ht
    rw [List.mem_singleton.mp ht]
    exact ⟨[str "443"], rfl⟩
  obtain ⟨-, -, hrun⟩ := sync_matching_halves (fun _ => []) pairDb hports
  obtain ⟨l, d, hends, hl, server, client, hserver, hclient, -, -, -, -, hfits⟩ :=
    hrun paqetTunnel (List.mem_singleton.mpr rfl) rfl entryNode List.mem_cons_self exitNode
      (List.mem_cons_of_mem _ List.mem_cons_self) rfl rfl (by decide)
  rcases hends with ⟨rfl, rfl⟩ | ⟨rfl, rfl⟩
  · exact absurd hl (by decide)
  · obtain ⟨a, b, ha, hb, hfits, -⟩ := hfits (by decide)
    exact ⟨server, client, hserver, hclient, a, b, ha, hb, hfits⟩

/-! ### Rules that say more -/

/-- A rule that ends the array and its table, and sets two keys of the table again. -/
def pastedRule : Str := str "80\"]\nsnappy = false\nmux_con = 1\n[other]\nx = [\"443"

/-- Two nodes, and a Backhaul tunnel between them with that rule. -/
def pastedPorts : List Request :=
  [.createNode 1 1 true (some (.dict [(str "ip", .str (str "10.0.0.1"))])),
    .createNode 2 2 true (some (.dict [(str "ip", .str (str "10.0.0.2"))])),
    .createTunnel 1 1 (some (.dict [(str "core_type", .str (str "backhaul")), (str "core_port", .int 3080),
      (str "server_node_id", .str (str "node_00000001")), (str "client_node_id", .str (str "node_00000002")),
      (str "ports", .list [.str pastedRule])]))]

/-- What the server half of that tunnel says. -/
def pastedServer : Half := ⟨str "0.0.0.0:3080", str "0000000000000001", .backhaul (str "ws") 1 false⟩

/-- What its client half says. -/
def pastedClient : Half := ⟨str "10.0.0.1:3080", str "0000000000000001", .backhaul (str "ws") 8 true⟩

/-- The halves of the tunnel in the answers to the two nodes, one for each. -/
def Db.Tells (db : Db) (l d : Node) (id : Text) (a b : Half) : Prop :=
  (db.entriesAt (fun _ => []) l id).map (fun e => e.payload.half .server) = [some a] ∧
    (db.entriesAt (fun _ => []) d id).map (fun e => e.payload.half .client) = [some b]

instance (db : Db) (l d : Node) (id : Text) (a b : Half) : Decidable (db.Tells l d id a b) :=
  inferInstanceAs (Decidable (_ ∧ _))

theorem pasted_not_fits : ¬ pastedServer.Fits (str "10.0.0.1") pastedClient := by
  intro h
  exact absurd h.carrier (by decide)

/-- The value is a list of this one string. -/
def isOnly (rule : Str) : Json → Bool
  | .list [.str s] => decide (s = rule)
  | _ => false

theorem eq_of_isOnly {rule : Str} {v : Json} (h : isOnly rule v = true) : v = .list [.str rule] := by
  unfold isOnly at h
  split at h
  · rw [of_decide_eq_true h]
  · cases h

/-- The two nodes are told halves that do not fit. -/
theorem pastedPorts_mismatched :
    ∃ db, exec serve Db.empty pastedPorts = some db ∧
      ∃ t ∈ db.tunnels.rows, t.ports = .list [.str pastedRule] ∧ t.Running ∧
        ∃ s ∈ db.nodes.rows, ∃ c ∈ db.nodes.rows, s.id = t.serverNodeId ∧ c.id = t.clientNodeId ∧ s ≠ c ∧
          s.ip = text "10.0.0.1" ∧ db.Tells s c t.id pastedServer pastedClient ∧
            ¬ pastedServer.Fits s.ip.val pastedClient := by
  obtain ⟨db, hrun, t, ht, hports, hrunning, s, hs, c, hc, hsid, hcid, hne, hip, htells⟩ :
      ∃ db, exec serve Db.empty pastedPorts = some db ∧
        ∃ t ∈ db.tunnels.rows, isOnly pastedRule t.ports = true ∧ t.Running ∧
          ∃ s ∈ db.nodes.rows, ∃ c ∈ db.nodes.rows, s.id = t.serverNodeId ∧ c.id = t.clientNodeId ∧ s ≠ c ∧
            s.ip = text "10.0.0.1" ∧ db.Tells s c t.id pastedServer pastedClient := exists_of_any (by decide +kernel)
  refine ⟨db, hrun, t, ht, eq_of_isOnly hports, hrunning, s, hs, c, hc, hsid, hcid, hne, hip, htells, ?_⟩
  rw [hip]
  exact pasted_not_fits

end Hawal.Panel
