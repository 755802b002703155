import Hawal.Lib.Python
import Hawal.Lib.Run
import Mathlib.Data.List.AList

/-!
# The agent of a node

`agent.py` keeps three dictionaries by tunnel id: the process that it started, the marker of what
it was started from, and what has to be cleaned up after it. `apply_configs` goes through the
items of a sync answer and starts, restarts or keeps the process of each tunnel, and then stops
those of tunnels that are no longer in the list. For the server half of a Paqet tunnel it also
installs firewall rules for the tunnel's port.

What the machine does is given with each item (`Outcome`): whether the binary can be had, the
network found, the file written and the process launched, and what `iptables` answers. The texts
that name the interface, the address and the gateway are put in the place of the markers in a Paqet
configuration. How Python prints a command line as JSON is the parameter `dumps`.
-/

namespace Hawal.Agent

open Hawal.Lib Hawal.Lib.Python

/-- A dictionary by tunnel ids. -/
abbrev Dict (α : Type) := AList fun _ : Str => α

/-! ### Rules of the firewall -/

/-- A rule, as the arguments of `iptables` name it. -/
structure Rule where
  table : Str
  chain : Str
  rule : List Str
  deriving DecidableEq

/-- The rules for the port of a Paqet server. -/
def paqetRules (corePort : ℤ) : List Rule :=
  [⟨str "raw", str "PREROUTING",
      [str "-p", str "tcp", str "--dport", decimal corePort, str "-j", str "NOTRACK"]⟩,
    ⟨str "raw", str "OUTPUT",
      [str "-p", str "tcp", str "--sport", decimal corePort, str "-j", str "NOTRACK"]⟩,
    ⟨str "mangle", str "OUTPUT",
      [str "-p", str "tcp", str "--sport", decimal corePort, str "--tcp-flags", str "RST", str "RST",
        str "-j", str "DROP"]⟩]

/-- The rules that one half of a Paqet tunnel needs: those of a server. -/
def rulesFor (role : Str) (corePort : ℤ) : List Rule :=
  if role = str "server" then paqetRules corePort else []

/-- How `iptables -D` answers for a rule: truthfully, or with an error after some deletions. -/
abbrev Deletes := Rule → Option ℕ

/-- `-D` until it fails. -/
def deleteRule (d : Deletes) (rules : List Rule) (r : Rule) : List Rule :=
  match d r with
  | none => rules.filter fun x => decide (x ≠ r)
  | some k => Nat.repeat (fun l : List Rule => l.erase r) k rules

/-- `cleanup_paqet_iptables`. -/
def cleanup (d : Deletes) (rules : List Rule) (role : Str) (corePort : ℤ) : List Rule :=
  (rulesFor role corePort).foldl (deleteRule d) rules

/-! ### Items and outcomes -/

/-- The cores that the agent knows. -/
inductive Engine where
  | hawal
  | backhaul
  | paqet
  | gost
  deriving DecidableEq, Repr

/-- What an item says of its core. A text is `none` when the item has no such text, and a command
when it is not a list; such items raise. -/
inductive Job where
  /-- The JSON text of the configuration. -/
  | hawal (config : Option Str)
  | backhaul (toml : Option Str)
  | paqet (yaml : Option Str) (role : Str) (corePort : ℤ)
  | gost (command : Option (List Str)) (role : Str)
  /-- Another core type. -/
  | other

/-- An item of a sync answer. The defaults of keys that it does not have are filled in. -/
structure Item where
  tunnelId : Str
  restartNonce : ℤ
  job : Job

/-- What `get_network_info` finds. -/
structure Net where
  iface : Str
  localIp : Str
  gwMac : Str

/-- What happens while an item is applied. -/
structure Outcome where
  /-- The binary is there or could be installed. -/
  binary : Bool
  /-- The network, if all of it was found. -/
  network : Option Net
  /-- The configuration file could be written. -/
  written : Bool
  /-- The process could be launched. -/
  launched : Bool
  /-- `-C` finds the rule when it is there. -/
  checks : Rule → Bool
  /-- `-A` succeeds. -/
  adds : Rule → Bool
  /-- The answers of `-D` when the process of before is stopped. -/
  stopDeletes : Deletes
  /-- The answers of `-D` when adding rules has failed. -/
  rollbackDeletes : Deletes

/-! ### The state -/

/-- What a process was started from: the content of its file, or for GOST the JSON text of its
command line. -/
structure Launch where
  tunnelId : Str
  engine : Engine
  content : Str
  nonce : ℤ
  deriving DecidableEq

/-- `content + "\x00restart:" + nonce`. -/
def marker (content : Str) (nonce : ℤ) : Str := content ++ str "\x00restart:" ++ decimal nonce

/-- What is to be cleaned up after a process. -/
inductive Metadata where
  | empty
  | paqet (role : Str) (corePort : ℤ)
  | gost (role : Str)
  deriving DecidableEq

/-- The agent and its machine. A process is its number in the order of the launches. -/
structure HawalAgent where
  processes : Dict ℕ
  configs : Dict Str
  metadata : Dict Metadata
  /-- What was launched so far. -/
  launches : List Launch
  /-- The processes that run. -/
  alive : List ℕ
  /-- The rules that are installed. -/
  rules : List Rule

/-- A new agent on a machine without rules. -/
def HawalAgent.start : HawalAgent :=
  { processes := ∅, configs := ∅, metadata := ∅, launches := [], alive := [], rules := [] }

namespace HawalAgent

/-- The tunnel has a process, and it runs. -/
def isRunning (s : HawalAgent) (tun : Str) : Bool :=
  match s.processes.lookup tun with
  | some pid => decide (pid ∈ s.alive)
  | none => false

/-- The tunnel's process runs and was started from the same. -/
def isCurrent (s : HawalAgent) (l : Launch) : Bool :=
  s.isRunning l.tunnelId && decide (s.configs.lookup l.tunnelId = some (marker l.content l.nonce))

/-- End a process. -/
def kill (s : HawalAgent) (pid : ℕ) : HawalAgent := { s with alive := s.alive.filter fun p => decide (p ≠ pid) }

/-- `stop_tunnel_process`. -/
def stop (s : HawalAgent) (tun : Str) (d : Deletes) : HawalAgent :=
  let s' : HawalAgent :=
    match s.processes.lookup tun with
    | some pid => { s.kill pid with processes := s.processes.erase tun, configs := s.configs.erase tun }
    | none => s
  { s' with
    rules :=
      match s.metadata.lookup tun with
      | some (.paqet role corePort) => cleanup d s.rules role corePort
      | _ => s.rules
    metadata := s.metadata.erase tun }

/-- `restart_tunnel_process`. -/
def restart (s : HawalAgent) (l : Launch) (m : Metadata) (o : Outcome) : HawalAgent :=
  let s := s.stop l.tunnelId o.stopDeletes
  if o.launched then
    { s with
      processes := s.processes.insert l.tunnelId s.launches.length
      configs := s.configs.insert l.tunnelId (marker l.content l.nonce)
      metadata := s.metadata.insert l.tunnelId m
      launches := s.launches ++ [l]
      alive := s.launches.length :: s.alive }
  else s

end HawalAgent

/-- The loop of `configure_paqet_iptables`, and whether every rule is there. -/
def addRules (o : Outcome) : List Rule → List Rule → List Rule × Bool
  | rules, [] => (rules, true)
  | rules, r :: rs =>
    if o.checks r && decide (r ∈ rules) then addRules o rules rs
    else if o.adds r then addRules o (r :: rules) rs
    else (rules, false)

/-- `configure_paqet_iptables`. -/
def configure (o : Outcome) (rules : List Rule) (role : Str) (corePort : ℤ) : List Rule × Bool :=
  let added := addRules o rules (rulesFor role corePort)
  if added.2 then added else (cleanup o.rollbackDeletes added.1 role corePort, false)

/-- The Paqet configuration with the markers filled in. -/
def fill (net : Net) (yaml : Str) : Str :=
  replace (str "\x7b\x7bROUTER_MAC\x7d\x7d") net.gwMac
    (replace (str "\x7b\x7bLOCAL_IP\x7d\x7d") net.localIp
      (replace (str "\x7b\x7bINTERFACE\x7d\x7d") net.iface yaml))

/-! ### Applying a sync answer -/

/-- The part of the loop that hawal and backhaul share: write the file and restart, unless the
process is current. The flag is false when an exception was raised. -/
def applyFile (s : HawalAgent) (l : Launch) (o : Outcome) : HawalAgent × Bool :=
  if s.isCurrent l then (s, true)
  else if o.written then (s.restart l .empty o, true)
  else (s, false)

/-- The part of the loop for Paqet, once the configuration is filled in. -/
def applyPaqet (s : HawalAgent) (l : Launch) (role : Str) (corePort : ℤ) (o : Outcome) : HawalAgent × Bool :=
  if s.isCurrent l then (s, true)
  else
    let s := s.stop l.tunnelId o.stopDeletes
    if o.written then
      let configured := configure o s.rules role corePort
      let s := { s with rules := configured.1 }
      if configured.2 then (s.restart l (.paqet role corePort) o, true) else (s, true)
    else (s, false)

/-- The part of the loop for GOST. -/
def applyGost (s : HawalAgent) (l : Launch) (role : Str) (o : Outcome) : HawalAgent × Bool :=
  if s.isCurrent l then (s, true) else (s.restart l (.gost role) o, true)

variable (dumps : List Str → Str)

/-- One pass of the loop of `apply_configs`. -/
def applyItem (s : HawalAgent) (i : Item) (o : Outcome) : HawalAgent × Bool :=
  match i.job with
  | .hawal config =>
    if o.binary then
      match config with
      | some content => applyFile s ⟨i.tunnelId, .hawal, content, i.restartNonce⟩ o
      | none => (s, false)
    else (s, true)
  | .backhaul toml =>
    match toml with
    | some content => applyFile s ⟨i.tunnelId, .backhaul, content, i.restartNonce⟩ o
    | none => (s, false)
  | .paqet yaml role corePort =>
    if o.binary then
      match o.network with
      | none => (s.stop i.tunnelId o.stopDeletes, true)
      | some net =>
        match yaml with
        | some template => applyPaqet s ⟨i.tunnelId, .paqet, fill net template, i.restartNonce⟩ role corePort o
        | none => (s, false)
    else (s, true)
  | .gost command role =>
    if o.binary then
      match command with
      | some [] => (s, true)
      | some (arg :: args) => applyGost s ⟨i.tunnelId, .gost, dumps (arg :: args), i.restartNonce⟩ role o
      | none => (s, false)
    else (s, true)
  | .other => (s, true)

/-- The loop of `apply_configs`, until an exception. An element without a tunnel id is `none`. -/
def applyItems (s : HawalAgent) : List (Option Item × Outcome) → HawalAgent × Bool
  | [] => (s, true)
  | (none, _) :: _ => (s, false)
  | (some i, o) :: rest =>
    let applied := applyItem dumps s i o
    if applied.2 then applyItems applied.1 rest else applied

/-- The tunnel ids of the items. -/
def activeIds (items : List (Option Item × Outcome)) : List Str :=
  items.filterMap fun io => io.1.map Item.tunnelId

/-- Stop the processes of these tunnels. -/
def stopAll (d : Str → Deletes) (s : HawalAgent) (tuns : List Str) : HawalAgent := tuns.foldl (fun s tun => s.stop tun (d tun)) s

/-- `apply_configs`. An exception ends it before tunnels are removed. -/
def applyConfigs (s : HawalAgent) (items : List (Option Item × Outcome)) (d : Str → Deletes) : HawalAgent :=
  let applied := applyItems dumps s items
  if applied.2 then
    stopAll d applied.1 (applied.1.processes.keys.filter fun tun => decide (tun ∉ activeIds items))
  else applied.1

/-- What happens to an agent. -/
inductive Event where
  | apply (items : List (Option Item × Outcome)) (d : Str → Deletes)
  /-- A process ends by itself. -/
  | died (pid : ℕ)
  /-- The end of `run`. -/
  | shutdown (d : Str → Deletes)

/-- One event. -/
def agentStep (s : HawalAgent) : Event → Option HawalAgent
  | .apply items d => some (applyConfigs dumps s items d)
  | .died pid => some (s.kill pid)
  | .shutdown d => some (stopAll d s s.processes.keys)

/-! ### For examples -/

/-- `dumps` of strings without characters to escape. -/
def plainDumps (args : List Str) : Str :=
  str "[" ++ join (str ",") (args.map fun arg => str "\"" ++ arg ++ str "\"") ++ str "]"

/-- Everything succeeds but, maybe, the launch. -/
def launching (launched : Bool) : Outcome where
  binary := true
  network := some ⟨str "eth0", str "10.0.0.2", str "02:00:00:00:00:01"⟩
  written := true
  launched := launched
  checks := fun _ => true
  adds := fun _ => true
  stopDeletes := fun _ => none
  rollbackDeletes := fun _ => none

end Hawal.Agent
