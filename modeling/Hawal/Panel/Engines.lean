import Hawal.Panel.Database

/-!
# Configurations of the four cores

What `hawal_engine.py`, `backhaul.py`, `paqet_engine.py` and `gost_engine.py` make of a row of
`tunnels` for its two ends: a JSON object, a TOML text, a YAML text and a command line. A rule of
the ports can be any JSON value, and `ports` itself too: a generator that loops over it
raises when it is not iterable. How Python prints a list or a dict among the rules is the parameter
`repr`.
-/

namespace Hawal.Panel

open Hawal.Lib Hawal.Lib.Python

variable (repr : Json → Str)

/-- `"…"`, without any escaping. -/
def quoted (s : Str) : Str := str "\"" ++ s ++ str "\""

/-- `host:port`. -/
def hostPort (host : Str) (port : ℤ) : Str := host ++ str ":" ++ decimal port

/-- `"true" if … else "false"`. -/
def trueFalse (n : ℤ) : Str := if n ≠ 0 then str "true" else str "false"

/-! ### Hawal -/

/-- `generate_hawal_core_server_config`. -/
def generateHawalCoreServerConfig (t : Tunnel) : Fields :=
  [(str "mode", .str (str "server")),
    (str "bind_addr", .str (hostPort (str "0.0.0.0") t.corePort)),
    (str "ports", t.ports),
    (str "token", .str t.token.val),
    (str "enable_padding", .bool (t.snappy ≠ 0)),
    (str "nodelay", .bool (t.nodelay ≠ 0))]

/-- `generate_hawal_core_client_config`. -/
def generateHawalCoreClientConfig (t : Tunnel) (serverIp : Str) : Fields :=
  [(str "mode", .str (str "client")),
    (str "connect_addr", .str (hostPort serverIp t.corePort)),
    (str "ports", t.ports),
    (str "token", .str t.token.val),
    (str "enable_padding", .bool (t.snappy ≠ 0)),
    (str "nodelay", .bool (t.nodelay ≠ 0))]

/-! ### Backhaul -/

/-- `ports_toml`: the rules in quotes, one a line. -/
def portsToml (ports : List Json) : Str :=
  str "[\n" ++ join (str ",\n") (ports.map fun p => str "  " ++ quoted (p.shown repr)) ++ str "\n]"

/-- `generate_server_config`, on all addresses. -/
def generateServerConfig (t : Tunnel) : Option Str := do
  let ports ← t.ports.iter
  some <| unlines
    [str "[server]",
      str "bind_addr = " ++ quoted (hostPort (str "0.0.0.0") t.corePort),
      str "transport = " ++ quoted t.transport.val,
      str "token = " ++ quoted t.token.val,
      str "ports = " ++ portsToml repr ports,
      str "nodelay = " ++ trueFalse t.nodelay,
      str "snappy = " ++ trueFalse t.snappy,
      str "keepalive_period = " ++ decimal t.keepalive,
      str "channel_size = " ++ decimal t.channelSize,
      str "log_level = \"info\"",
      str "heartbeat = 40",
      str "mux_con = " ++ decimal t.muxCon]

/-- `generate_client_config`. -/
def generateClientConfig (t : Tunnel) (serverPublicIp : Str) : Str :=
  unlines
    [str "[client]",
      str "remote_addr = " ++ quoted (hostPort serverPublicIp t.corePort),
      str "transport = " ++ quoted t.transport.val,
      str "token = " ++ quoted t.token.val,
      str "connection_pool = 4",
      str "retry_interval = 3",
      str "nodelay = " ++ trueFalse t.nodelay,
      str "snappy = " ++ trueFalse t.snappy,
      str "keepalive_period = " ++ decimal t.keepalive,
      str "log_level = \"info\"",
      str "dial_timeout = 10",
      str "mux_con = " ++ decimal t.muxCon]

/-! ### Paqet -/

/-- `host` in a target that has no host of its own. -/
def withLocalhost (port : Str) : Str := str "127.0.0.1:" ++ port

/-- One rule of `parse_ports_list`: where to listen and the target; empty rules are skipped. -/
def parsePort (rule : Str) : Option (Str × Str) :=
  let p := strip rule
  if p = [] then none
  else
    match after '='.toNat p with
    | some target =>
      let target := strip target
      some (strip (before '='.toNat p), if ':'.toNat ∈ target then target else withLocalhost target)
    | none =>
      match after ':'.toNat p with
      | some target => some (strip (before ':'.toNat p), withLocalhost (strip target))
      | none => some (p, withLocalhost p)

/-- `parse_ports_list`. -/
def parsePortsList (ports : Json) : Option (List (Str × Str)) :=
  ports.iter.map fun ps => ps.filterMap fun p => parsePort (p.shown repr)

/-- A place that the agent fills in. -/
def marker (name : String) : Str := str "\x7b\x7b" ++ str name ++ str "\x7d\x7d"

/-- `mtu`: the channel size, when it can be one. -/
def paqetMtu (t : Tunnel) : ℤ := if t.channelSize ≤ 1400 then t.channelSize else 1150

/-- The lines on the carrier, which both ends have alike. -/
def paqetTransport (t : Tunnel) : List Str :=
  [str "transport:",
    str "  protocol: \"kcp\"",
    str "  conn: " ++ decimal t.muxCon,
    str "  tcpbuf: 8192",
    str "  udpbuf: 4096",
    str "  kcp:",
    str "    key: " ++ quoted t.token.val,
    str "    mode: " ++ quoted (str "fast"),
    str "    block: " ++ quoted (str "aes-128-gcm"),
    str "    mtu: " ++ decimal (paqetMtu t)]

/-- `generate_paqet_server_config`. -/
def generatePaqetServerConfig (t : Tunnel) : Str :=
  unlines <|
    [str "# Hawal Paqet Server Config (Auto-Generated)",
      str "role: \"server\"",
      str "",
      str "log:",
      str "  level: \"info\"",
      str "",
      str "listen:",
      str "  addr: " ++ quoted (hostPort [] t.corePort),
      str "",
      str "network:",
      str "  interface: " ++ quoted (marker "INTERFACE"),
      str "  ipv4:",
      str "    addr: " ++ quoted (hostPort (marker "LOCAL_IP") t.corePort),
      str "    router_mac: " ++ quoted (marker "ROUTER_MAC"),
      str "  tcp:",
      str "    local_flag: [\"PA\"]",
      str "  pcap:",
      str "    sockbuf: 8388608",
      str ""] ++ paqetTransport t

/-- The lines of one forward. -/
def forwardLines (f : Str × Str) : List Str :=
  [str "  - listen: " ++ quoted (str "0.0.0.0:" ++ f.1),
    str "    target: " ++ quoted f.2,
    str "    protocol: \"tcp\" "]

/-- `generate_paqet_client_config`. Without any forward it has one of port 443. -/
def generatePaqetClientConfig (t : Tunnel) (serverIp : Str) : Option Str := do
  let ports ← parsePortsList repr t.ports
  let forwards := if ports = [] then [(str "443", str "127.0.0.1:443")] else ports
  some <| unlines <|
    [str "# Hawal Paqet Client Config (Auto-Generated)",
      str "role: \"client\"",
      str "",
      str "log:",
      str "  level: \"info\"",
      str "",
      str "forward:"] ++ forwards.flatMap forwardLines ++
    [str "",
      str "network:",
      str "  interface: " ++ quoted (marker "INTERFACE"),
      str "  ipv4:",
      str "    addr: " ++ quoted (marker "LOCAL_IP" ++ str ":0"),
      str "    router_mac: " ++ quoted (marker "ROUTER_MAC"),
      str "  tcp:",
      str "    local_flag: [\"PA\"]",
      str "    remote_flag: [\"PA\"]",
      str "  pcap:",
      str "    sockbuf: 4194304",
      str "",
      str "server:",
      str "  addr: " ++ quoted (hostPort serverIp t.corePort),
      str ""] ++ paqetTransport t

/-! ### GOST -/

/-- `gost_transport`. -/
def gostTransport (t : Tunnel) : Str :=
  let transport := lower t.transport.val
  if transport ∈ [str "tls", str "ws", str "kcp", str "quic"] then transport else str "tls"

/-- A relay address: its carrier, the secret and where it is. -/
def relay (transport : Str) (secret : Text) (address : Str) : Str :=
  str "relay+" ++ transport ++ str "://hawal:" ++ quote secret ++ str "@" ++ address

/-- `relay_url`. -/
def relayUrl (t : Tunnel) (host : Str) : Str := relay (gostTransport t) t.token (hostPort host t.corePort)

/-- `generate_gost_server_command`. -/
def generateGostServerCommand (t : Tunnel) : List Str := [str "-L", relayUrl t []]

/-- The arguments for one rule; a rule that is not `port=target` has none. -/
def gostForward (rule : Str) : List Str :=
  match after '='.toNat rule with
  | none => []
  | some target =>
    match parseInt (afterLast ':'.toNat (strip (before '='.toNat rule))) with
    | none => []
    | some port =>
      let target := strip target
      if target = [] ∨ ¬ (1 ≤ port ∧ port ≤ 65535) then []
      else
        [str "-L", str "tcp://:" ++ decimal port ++ str "/" ++ target,
          str "-L", str "udp://:" ++ decimal port ++ str "/" ++ target]

/-- `generate_gost_client_command`. -/
def generateGostClientCommand (t : Tunnel) (serverIp : Str) : Option (List Str) := do
  let ports ← t.ports.iter
  some ((ports.flatMap fun rule => gostForward (rule.shown repr)) ++ [str "-F", relayUrl t serverIp])

end Hawal.Panel
