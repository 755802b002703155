import Hawal.Lib.Yaml
import Hawal.Panel.Engines

/-!
# Reading the configurations of Paqet

The two texts of `paqet_engine.py` put the token, the address of the server and the forwards between quotation marks
as they are. Here they are read again as YAML.

* `read_generatePaqetServerConfig`, `read_generatePaqetClientConfig` — when there is nothing in these that YAML takes
  for more than text, the texts hold the settings that they are meant to hold.
-/

namespace Hawal.Panel.PaqetYaml

open Hawal.Lib Hawal.Lib.Python

open Yaml (Spells)

/-! ### The settings -/

/-- Where a key of a mapping is, by the keys that lead to it. -/
def place (keys : List String) : Yaml.Path := keys.map fun k => .key (str k)

/-- The settings of the carrier. -/
def transportSettings (t : Tunnel) : Yaml.Document :=
  [(place ["transport", "protocol"], .string (str "kcp")),
    (place ["transport", "conn"], .int t.muxCon),
    (place ["transport", "tcpbuf"], .int 8192),
    (place ["transport", "udpbuf"], .int 4096),
    (place ["transport", "kcp", "key"], .string t.token.val),
    (place ["transport", "kcp", "mode"], .string (str "fast")),
    (place ["transport", "kcp", "block"], .string (str "aes-128-gcm")),
    (place ["transport", "kcp", "mtu"], .int (paqetMtu t))]

/-- **What the server's text is meant to hold.** -/
def serverDocument (t : Tunnel) : Yaml.Document :=
  [(place ["role"], .string (str "server")),
    (place ["log", "level"], .string (str "info")),
    (place ["listen", "addr"], .string (hostPort [] t.corePort)),
    (place ["network", "interface"], .string (marker "INTERFACE")),
    (place ["network", "ipv4", "addr"], .string (hostPort (marker "LOCAL_IP") t.corePort)),
    (place ["network", "ipv4", "router_mac"], .string (marker "ROUTER_MAC")),
    (place ["network", "tcp", "local_flag"], .list [str "PA"]),
    (place ["network", "pcap", "sockbuf"], .int 8388608)] ++ transportSettings t

/-- A setting of the forward with the number. -/
def ofForward (n : ℕ) (key : String) : Yaml.Path := place ["forward"] ++ [.item n] ++ [.key (str key)]

/-- The settings of the forwards from the number `n` on. -/
def forwardSettings : ℕ → List (Str × Str) → Yaml.Document
  | _, [] => []
  | n, f :: fs =>
    [(ofForward n "listen", .string (str "0.0.0.0:" ++ f.1)),
      (ofForward n "target", .string f.2),
      (ofForward n "protocol", .string (str "tcp"))] ++ forwardSettings (n + 1) fs

/-- The forwards that the client has: without any, one of port 443. -/
def forwardsOf (parsed : List (Str × Str)) : List (Str × Str) :=
  if parsed = [] then [(str "443", str "127.0.0.1:443")] else parsed

/-- The settings after the forwards. -/
def networkSettings (t : Tunnel) (serverIp : Str) : Yaml.Document :=
  [(place ["network", "interface"], .string (marker "INTERFACE")),
    (place ["network", "ipv4", "addr"], .string (marker "LOCAL_IP" ++ str ":0")),
    (place ["network", "ipv4", "router_mac"], .string (marker "ROUTER_MAC")),
    (place ["network", "tcp", "local_flag"], .list [str "PA"]),
    (place ["network", "tcp", "remote_flag"], .list [str "PA"]),
    (place ["network", "pcap", "sockbuf"], .int 4194304),
    (place ["server", "addr"], .string (hostPort serverIp t.corePort))] ++ transportSettings t

/-- **What the client's text is meant to hold.** -/
def clientDocument (t : Tunnel) (serverIp : Str) (forwards : List (Str × Str)) : Yaml.Document :=
  [(place ["role"], .string (str "client")), (place ["log", "level"], .string (str "info"))] ++
    forwardSettings 0 forwards ++ networkSettings t serverIp

/-! ### The lines -/

/-- A line of a mapping with a block after it. -/
def opens (indent : ℕ) (key : String) : Yaml.Line := ⟨indent, false, str key, none⟩

/-- A line of a mapping with a value. -/
def sets (indent : ℕ) (key : String) (v : Yaml.Value) : Yaml.Line := ⟨indent, false, str key, some v⟩

/-- The lines on the carrier. -/
def transportLines (t : Tunnel) : List Yaml.Line :=
  [opens 0 "transport", sets 2 "protocol" (.string (str "kcp")), sets 2 "conn" (.int t.muxCon),
    sets 2 "tcpbuf" (.int 8192), sets 2 "udpbuf" (.int 4096), opens 2 "kcp", sets 4 "key" (.string t.token.val),
    sets 4 "mode" (.string (str "fast")), sets 4 "block" (.string (str "aes-128-gcm")),
    sets 4 "mtu" (.int (paqetMtu t))]

/-- The lines of the server's text. -/
def serverLines (t : Tunnel) : List Yaml.Line :=
  [sets 0 "role" (.string (str "server")), opens 0 "log", sets 2 "level" (.string (str "info")), opens 0 "listen",
    sets 2 "addr" (.string (hostPort [] t.corePort)), opens 0 "network",
    sets 2 "interface" (.string (marker "INTERFACE")), opens 2 "ipv4",
    sets 4 "addr" (.string (hostPort (marker "LOCAL_IP") t.corePort)),
    sets 4 "router_mac" (.string (marker "ROUTER_MAC")), opens 2 "tcp", sets 4 "local_flag" (.list [str "PA"]),
    opens 2 "pcap", sets 4 "sockbuf" (.int 8388608)] ++ transportLines t

/-- The lines of a forward. -/
def forwardItem (f : Str × Str) : List Yaml.Line :=
  [⟨2, true, str "listen", some (.string (str "0.0.0.0:" ++ f.1))⟩, sets 4 "target" (.string f.2),
    sets 4 "protocol" (.string (str "tcp"))]

/-- The lines of the client's text before the forwards. -/
def clientHead : List Yaml.Line :=
  [sets 0 "role" (.string (str "client")), opens 0 "log", sets 2 "level" (.string (str "info")), opens 0 "forward"]

/-- The lines of the client's text between the forwards and the carrier. -/
def networkLines (t : Tunnel) (serverIp : Str) : List Yaml.Line :=
  [opens 0 "network", sets 2 "interface" (.string (marker "INTERFACE")), opens 2 "ipv4",
    sets 4 "addr" (.string (marker "LOCAL_IP" ++ str ":0")), sets 4 "router_mac" (.string (marker "ROUTER_MAC")),
    opens 2 "tcp", sets 4 "local_flag" (.list [str "PA"]), sets 4 "remote_flag" (.list [str "PA"]), opens 2 "pcap",
    sets 4 "sockbuf" (.int 4194304), opens 0 "server", sets 2 "addr" (.string (hostPort serverIp t.corePort))]

variable {t : Tunnel}

theorem plain_decimal (n : ℤ) : Yaml.Plain (decimal n) := by
  intro c hc
  rcases mem_decimal hc with rfl | h
  · decide
  · have hlo := h.1
    have hhi := h.2
    simp [Yaml.isPlainChar]
    omega

theorem plain_hostPort {host : Str} (h : Yaml.Plain host) (n : ℤ) : Yaml.Plain (hostPort host n) :=
  List.forall_mem_append.mpr ⟨List.forall_mem_append.mpr ⟨h, by decide⟩, plain_decimal n⟩

theorem spells_transport (htoken : Yaml.Plain t.token.val) : Spells (paqetTransport t) (transportLines t) := by
  have hhead : Spells [str "transport:", str "  protocol: \"kcp\""]
      [opens 0 "transport", sets 2 "protocol" (.string (str "kcp"))] := .fixed (by decide) (by decide)
  have hconn : Spells [str "  conn: " ++ decimal t.muxCon] [sets 2 "conn" (.int t.muxCon)] :=
    .int 2 (str "conn") (by decide) _
  have hkcp : Spells [str "  tcpbuf: 8192", str "  udpbuf: 4096", str "  kcp:"]
      [sets 2 "tcpbuf" (.int 8192), sets 2 "udpbuf" (.int 4096), opens 2 "kcp"] := .fixed (by decide) (by decide)
  have hkey : Spells [str "    key: " ++ quoted t.token.val] [sets 4 "key" (.string t.token.val)] :=
    .string 4 (str "key") (by decide) htoken
  have hmode : Spells [str "    mode: " ++ quoted (str "fast"), str "    block: " ++ quoted (str "aes-128-gcm")]
      [sets 4 "mode" (.string (str "fast")), sets 4 "block" (.string (str "aes-128-gcm"))] :=
    .fixed (by decide) (by decide)
  have hmtu : Spells [str "    mtu: " ++ decimal (paqetMtu t)] [sets 4 "mtu" (.int (paqetMtu t))] :=
    .int 4 (str "mtu") (by decide) _
  exact ((((hhead.append hconn).append hkcp).append hkey).append hmode).append hmtu

/-! ### The server's text -/

theorem spells_server (htoken : Yaml.Plain t.token.val) :
    ∃ ls, generatePaqetServerConfig t = unlines ls ∧ Spells ls (serverLines t) := by
  have hhead : Spells [str "# Hawal Paqet Server Config (Auto-Generated)", str "role: \"server\"", str "", str "log:",
      str "  level: \"info\"", str "", str "listen:"]
      [sets 0 "role" (.string (str "server")), opens 0 "log", sets 2 "level" (.string (str "info")),
        opens 0 "listen"] := .fixed (by decide) (by decide)
  have hlisten : Spells [str "  addr: " ++ quoted (hostPort [] t.corePort)]
      [sets 2 "addr" (.string (hostPort [] t.corePort))] :=
    .string 2 (str "addr") (by decide) (plain_hostPort (List.forall_mem_nil _) _)
  have hnetwork : Spells [str "", str "network:", str "  interface: " ++ quoted (marker "INTERFACE"), str "  ipv4:"]
      [opens 0 "network", sets 2 "interface" (.string (marker "INTERFACE")), opens 2 "ipv4"] :=
    .fixed (by decide) (by decide)
  have haddr : Spells [str "    addr: " ++ quoted (hostPort (marker "LOCAL_IP") t.corePort)]
      [sets 4 "addr" (.string (hostPort (marker "LOCAL_IP") t.corePort))] :=
    .string 4 (str "addr") (by decide) (plain_hostPort (by decide) _)
  have hpcap : Spells [str "    router_mac: " ++ quoted (marker "ROUTER_MAC"), str "  tcp:",
      str "    local_flag: [\"PA\"]", str "  pcap:", str "    sockbuf: 8388608", str ""]
      [sets 4 "router_mac" (.string (marker "ROUTER_MAC")), opens 2 "tcp", sets 4 "local_flag" (.list [str "PA"]),
        opens 2 "pcap", sets 4 "sockbuf" (.int 8388608)] := .fixed (by decide) (by decide)
  exact ⟨_, rfl, ((((hhead.append hlisten).append hnetwork).append haddr).append hpcap).append (spells_transport htoken)⟩

/-- **The server's text**: with a token that is plain text it holds the settings. -/
theorem read_generatePaqetServerConfig (htoken : Yaml.Plain t.token.val) :
    Yaml.read (generatePaqetServerConfig t) = some (serverDocument t) := by
  obtain ⟨ls, htext, hspells⟩ := spells_server htoken
  rw [htext]
  exact hspells.read_eq rfl

/-! ### The client's text -/

variable {serverIp : Str}

theorem spells_forward {f : Str × Str} (hlisten : Yaml.Plain f.1) (htarget : Yaml.Plain f.2) :
    Spells (forwardLines f) (forwardItem f) := by
  have haddr : Yaml.Plain (str "0.0.0.0:" ++ f.1) := List.forall_mem_append.mpr ⟨by decide, hlisten⟩
  have hhead : Spells [str "  - listen: " ++ quoted (str "0.0.0.0:" ++ f.1)]
      [⟨2, true, str "listen", some (.string (str "0.0.0.0:" ++ f.1))⟩] := .item 2 (str "listen") (by decide) haddr
  have htarget : Spells [str "    target: " ++ quoted f.2] [sets 4 "target" (.string f.2)] :=
    .string 4 (str "target") (by decide) htarget
  have hprotocol : Spells [str "    protocol: \"tcp\" "] [sets 4 "protocol" (.string (str "tcp"))] :=
    .fixed (by decide) (by decide)
  exact (hhead.append htarget).append hprotocol

theorem spells_clientHead :
    Spells [str "# Hawal Paqet Client Config (Auto-Generated)", str "role: \"client\"", str "", str "log:",
      str "  level: \"info\"", str "", str "forward:"] clientHead := .fixed (by decide) (by decide)

theorem spells_network (t : Tunnel) (hip : Yaml.Plain serverIp) :
    Spells [str "", str "network:", str "  interface: " ++ quoted (marker "INTERFACE"), str "  ipv4:",
      str "    addr: " ++ quoted (marker "LOCAL_IP" ++ str ":0"),
      str "    router_mac: " ++ quoted (marker "ROUTER_MAC"), str "  tcp:", str "    local_flag: [\"PA\"]",
      str "    remote_flag: [\"PA\"]", str "  pcap:", str "    sockbuf: 4194304", str "", str "server:",
      str "  addr: " ++ quoted (hostPort serverIp t.corePort), str ""] (networkLines t serverIp) := by
  have hhead : Spells [str "", str "network:", str "  interface: " ++ quoted (marker "INTERFACE"), str "  ipv4:",
      str "    addr: " ++ quoted (marker "LOCAL_IP" ++ str ":0"),
      str "    router_mac: " ++ quoted (marker "ROUTER_MAC"), str "  tcp:", str "    local_flag: [\"PA\"]",
      str "    remote_flag: [\"PA\"]", str "  pcap:", str "    sockbuf: 4194304", str "", str "server:"]
      [opens 0 "network", sets 2 "interface" (.string (marker "INTERFACE")), opens 2 "ipv4",
        sets 4 "addr" (.string (marker "LOCAL_IP" ++ str ":0")), sets 4 "router_mac" (.string (marker "ROUTER_MAC")),
        opens 2 "tcp", sets 4 "local_flag" (.list [str "PA"]), sets 4 "remote_flag" (.list [str "PA"]), opens 2 "pcap",
        sets 4 "sockbuf" (.int 4194304), opens 0 "server"] := .fixed (by decide) (by decide)
  have haddr : Spells [str "  addr: " ++ quoted (hostPort serverIp t.corePort)]
      [sets 2 "addr" (.string (hostPort serverIp t.corePort))] :=
    .string 2 (str "addr") (by decide) (plain_hostPort hip _)
  have hblank : Spells [str ""] [] := .fixed (by decide) rfl
  exact (hhead.append haddr).append hblank

/-- The reader after the forward with the number `n`. -/
def afterForward (entries : Yaml.Document) (blocks : List Yaml.Block) (n : ℕ) (f : Str × Str) : Yaml.Reading where
  entries := entries ++ forwardSettings n [f]
  blocks := ⟨4, place ["forward"] ++ [.item n], .mapping [str "listen", str "target", str "protocol"]⟩ ::
    ⟨2, place ["forward"], .sequence (n + 1)⟩ :: blocks
  pending := none

theorem addLine_forward {r : Yaml.Reading} {blocks : List Yaml.Block} {n : ℕ} (f : Str × Str)
    (hopen : Yaml.openAt r 2 (.sequence 0) = some (⟨2, place ["forward"], .sequence n⟩ :: blocks)) :
    (forwardItem f).foldlM Yaml.addLine r = some (afterForward r.entries blocks n f) := by
  have hlisten : Yaml.addLine r ⟨2, true, str "listen", some (.string (str "0.0.0.0:" ++ f.1))⟩ =
      some ⟨r.entries ++ [(ofForward n "listen", .string (str "0.0.0.0:" ++ f.1))],
        ⟨4, place ["forward"] ++ [.item n], .mapping [str "listen"]⟩ ::
          ⟨2, place ["forward"], .sequence (n + 1)⟩ :: blocks, none⟩ := by
    show (Yaml.openAt r 2 (.sequence 0)).bind _ = _
    rw [hopen]
    rfl
  have hentries : afterForward r.entries blocks n f =
      ⟨r.entries ++ [(ofForward n "listen", .string (str "0.0.0.0:" ++ f.1))] ++ [(ofForward n "target", .string f.2)] ++
        [(ofForward n "protocol", .string (str "tcp"))], (afterForward r.entries blocks n f).blocks, none⟩ := by
    simp only [List.append_assoc]
    rfl
  rw [forwardItem, List.foldlM_cons, hlisten, hentries]
  rfl

/-- The lines of forwards, from where another can begin. -/
theorem addLine_forwards {blocks : List Yaml.Block} {fs : List (Str × Str)} :
    ∀ {n : ℕ} {r : Yaml.Reading}, fs ≠ [] →
      Yaml.openAt r 2 (.sequence 0) = some (⟨2, place ["forward"], .sequence n⟩ :: blocks) →
        ∃ path keys m, (fs.flatMap forwardItem).foldlM Yaml.addLine r =
          some ⟨r.entries ++ forwardSettings n fs,
            ⟨4, path, .mapping keys⟩ :: ⟨2, place ["forward"], .sequence m⟩ :: blocks, none⟩ := by
  induction fs with
  | nil => exact fun hne => absurd rfl hne
  | cons f fs ih =>
    intro n r _ hopen
    rw [List.flatMap_cons, Yaml.foldlM_addLine_append (addLine_forward f hopen)]
    cases fs with
    | nil => exact ⟨_, _, _, rfl⟩
    | cons f' fs =>
      -- after the lines of one forward another can begin
      have hnext : Yaml.openAt (afterForward r.entries blocks n f) 2 (.sequence 0) =
          some (⟨2, place ["forward"], .sequence (n + 1)⟩ :: blocks) := rfl
      obtain ⟨path, keys, m, hrest⟩ := ih (List.cons_ne_nil f' fs) hnext
      have hsettings : forwardSettings n (f :: f' :: fs) =
          forwardSettings n [f] ++ forwardSettings (n + 1) (f' :: fs) := rfl
      refine ⟨path, keys, m, ?_⟩
      rw [hrest, hsettings, ← List.append_assoc]
      rfl

/-- The reader before the forwards. -/
def headed : Yaml.Reading where
  entries := [(place ["role"], .string (str "client")), (place ["log", "level"], .string (str "info"))]
  blocks := [⟨0, [], .mapping [str "role", str "log", str "forward"]⟩]
  pending := some (place ["forward"])

theorem addLine_client (t : Tunnel) (serverIp : Str) {fs : List (Str × Str)} (hne : fs ≠ []) :
    ∃ blocks, (clientHead ++ fs.flatMap forwardItem ++ networkLines t serverIp ++ transportLines t).foldlM Yaml.addLine
      Yaml.start = some ⟨clientDocument t serverIp fs, blocks, none⟩ := by
  have hhead : clientHead.foldlM Yaml.addLine Yaml.start = some headed := rfl
  have hopen : Yaml.openAt headed 2 (.sequence 0) = some (⟨2, place ["forward"], .sequence 0⟩ :: headed.blocks) := rfl
  obtain ⟨path, keys, m, hforwards⟩ := addLine_forwards hne hopen
  -- the first line of the tail closes the blocks of the forwards
  have htail : ∃ blocks, (networkLines t serverIp ++ transportLines t).foldlM Yaml.addLine
      ⟨[], ⟨4, path, .mapping keys⟩ :: ⟨2, place ["forward"], .sequence m⟩ :: headed.blocks, none⟩ =
        some ⟨networkSettings t serverIp, blocks, none⟩ := ⟨_, rfl⟩
  obtain ⟨blocks, htail⟩ := htail
  have hafter := Yaml.foldlM_addLine_after (headed.entries ++ forwardSettings 0 fs)
    ⟨[], ⟨4, path, .mapping keys⟩ :: ⟨2, place ["forward"], .sequence m⟩ :: headed.blocks, none⟩
    (networkLines t serverIp ++ transportLines t)
  rw [htail, Yaml.Reading.after, List.append_nil] at hafter
  refine ⟨blocks, ?_⟩
  rw [List.append_assoc, List.append_assoc, Yaml.foldlM_addLine_append hhead, Yaml.foldlM_addLine_append hforwards,
    hafter]
  rfl

/-- **The client's text**: with a token, an address and forwards that are plain text it holds the settings. -/
theorem read_generatePaqetClientConfig {repr : Json → Str} {parsed : List (Str × Str)}
    (hparsed : parsePortsList repr t.ports = some parsed) (htoken : Yaml.Plain t.token.val) (hip : Yaml.Plain serverIp)
    (hforwards : ∀ f ∈ parsed, Yaml.Plain f.1 ∧ Yaml.Plain f.2) :
    (generatePaqetClientConfig repr t serverIp).bind Yaml.read =
      some (clientDocument t serverIp (forwardsOf parsed)) := by
  have hne : forwardsOf parsed ≠ [] := by
    unfold forwardsOf
    split
    · exact List.cons_ne_nil _ _
    · assumption
  have hplain : ∀ f ∈ forwardsOf parsed, Yaml.Plain f.1 ∧ Yaml.Plain f.2 := by
    unfold forwardsOf
    split
    · decide
    · exact hforwards
  have hall := Spells.flatMap fun f hf => spells_forward (hplain f hf).1 (hplain f hf).2
  have hspells := ((spells_clientHead.append hall).append (spells_network t hip)).append (spells_transport htoken)
  obtain ⟨blocks, hadd⟩ := addLine_client t serverIp hne
  rw [generatePaqetClientConfig, hparsed]
  show Yaml.read (unlines _) = _
  exact hspells.read_eq hadd

end Hawal.Panel.PaqetYaml
