import Hawal.Panel.Answer
import Hawal.Panel.PortRules

/-!
# The configuration of a Hawal core

`main` of `core/main.go` takes its settings from flags and, over them, from a file of JSON. `json.Unmarshal` goes
through the object of the file key by key: `null` leaves what was there, another value must be of the type of the
field, and half of a surrogate pair is the replacement character.

* `decodeRules_isSome_iff` — which values are rules.
* `main_server`, `main_client` — what a core makes of the files that the panel's generators are written to.

A key that is one of the fields' in another case, and what Go does not accept under keys that are not in
`ConfigFile`, are left out; the panel writes neither.
-/

namespace Hawal.Core

open Hawal.Lib Hawal.Lib.Python Hawal.Panel

variable {R : FloatReader}

/-! ### `json.Unmarshal` -/

/-- A string of JSON as a Go string. -/
def goString (s : Str) : Str := s.map fun c => if 0xD800 ≤ c ∧ c < 0xE000 then 0xFFFD else c

/-- Into a `string`. -/
def decodeString (old : Str) : Json → Option Str
  | .null => some old
  | .str s => some (goString s)
  | _ => none

/-- Into a `bool`. -/
def decodeBool (old : Bool) : Json → Option Bool
  | .null => some old
  | .bool b => some b
  | _ => none

/-- Into the elements of a slice, over those that are there. -/
def decodeItems : List Str → List Json → Option (List Str)
  | _, [] => some []
  | old, x :: xs => do
    let s ← decodeString (old.headD []) x
    let rest ← decodeItems old.tail xs
    some (s :: rest)

/-- Into a `[]string`. -/
def decodeRules (old : List Str) : Json → Option (List Str)
  | .null => some []
  | .list xs => decodeItems old xs
  | _ => none

/-- `ConfigFile`. -/
structure ConfigFile where
  mode : Str
  bindAddr : Str
  connectAddr : Str
  ports : List Str
  token : Str
  enablePadding : Bool
  noDelay : Bool
  deriving DecidableEq

/-- A key and its value, into the field with the key as its tag. -/
def decodeField (cfg : ConfigFile) (f : Str × Json) : Option ConfigFile :=
  if f.1 = str "mode" then (decodeString cfg.mode f.2).map fun s => { cfg with mode := s }
  else if f.1 = str "bind_addr" then (decodeString cfg.bindAddr f.2).map fun s => { cfg with bindAddr := s }
  else if f.1 = str "connect_addr" then (decodeString cfg.connectAddr f.2).map fun s => { cfg with connectAddr := s }
  else if f.1 = str "ports" then (decodeRules cfg.ports f.2).map fun rules => { cfg with ports := rules }
  else if f.1 = str "token" then (decodeString cfg.token f.2).map fun s => { cfg with token := s }
  else if f.1 = str "enable_padding" then
    (decodeBool cfg.enablePadding f.2).map fun b => { cfg with enablePadding := b }
  else if f.1 = str "nodelay" then (decodeBool cfg.noDelay f.2).map fun b => { cfg with noDelay := b }
  else some cfg

/-- `json.Unmarshal(data, &cfg)`; `none` when it returns an error. -/
def unmarshal (R : FloatReader) (data : Str) (cfg : ConfigFile) : Option ConfigFile := do
  match ← loads R data with
  | .null => some cfg
  | .dict fields => fields.foldlM decodeField cfg
  | _ => none

/-! ### `main` -/

/-- The flags. -/
structure Flags where
  mode : Str := []
  listen : Str := []
  connect : Str := []
  ports : Str := []
  token : Str := []
  padding : Bool := true
  nodelay : Bool := true
  config : Str := []

/-- `cfg` before a file is read. -/
def Flags.file (flags : Flags) : ConfigFile where
  mode := flags.mode
  bindAddr := flags.listen
  connectAddr := flags.connect
  ports := if flags.ports ≠ [] then flags.ports.splitOn ','.toNat else []
  token := flags.token
  enablePadding := flags.padding
  noDelay := flags.nodelay

/-- `server.ServerConfig`. -/
structure ServerConfig where
  bindAddr : Str
  ports : List Str
  token : Str
  enablePadding : Bool
  noDelay : Bool
  deriving DecidableEq

/-- `client.ClientConfig`. -/
structure ClientConfig where
  connectAddr : Str
  ports : List Str
  token : Str
  enablePadding : Bool
  noDelay : Bool
  deriving DecidableEq

/-- What runs in a process that was not ended by `log.Fatalf`. -/
inductive Half where
  | server (cfg : ServerConfig)
  | client (cfg : ClientConfig)
  deriving DecidableEq

/-- `main`, up to where the server or the client is started; `none` when it ends the process before. The key that
`NewServer` and `NewClient` make of a token always has the length that is needed, so that they do not fail. -/
def main (R : FloatReader) (files : Str → Option Str) (flags : Flags) : Option Half := do
  let cfg ← if flags.config ≠ [] then (files flags.config).bind fun data => unmarshal R data flags.file
    else some flags.file
  if cfg.token = [] then none
  else if cfg.mode = str "server" then
    if cfg.bindAddr = [] then none
    else some (.server ⟨cfg.bindAddr, cfg.ports, cfg.token, cfg.enablePadding, cfg.noDelay⟩)
  else if cfg.mode = str "client" then
    if cfg.connectAddr = [] then none
    else some (.client ⟨cfg.connectAddr, cfg.ports, cfg.token, cfg.enablePadding, cfg.noDelay⟩)
  else none

/-- `[HAWAL_CORE_BIN, "-config", cfg_path]`. -/
def commandLine (cfgPath : Str) : Flags := { config := cfgPath }

/-! ### Strings and rules -/

variable {s : Str} {v : Json}

theorem goString_of_encodable (h : Encodable s) : goString s = s := by
  unfold goString
  conv_rhs => rw [← List.map_id s]
  refine List.map_congr_left fun c hc => ?_
  rw [if_neg (h c hc)]
  rfl

/-- Strings, and `null` where the string is empty. -/
def IsRules (v : Json) : Prop := v = .null ∨ ∃ xs, v = .list xs ∧ ∀ x ∈ xs, x = .null ∨ ∃ s, x = .str s

theorem decodeString_isSome_iff {old : Str} {x : Json} :
    (decodeString old x).isSome = true ↔ x = .null ∨ ∃ s, x = .str s := by
  cases x <;> simp [decodeString]

theorem decodeItems_isSome_iff {xs : List Json} (old : List Str) :
    (decodeItems old xs).isSome = true ↔ ∀ x ∈ xs, x = .null ∨ ∃ s, x = .str s := by
  induction xs generalizing old with
  | nil => simp [decodeItems]
  | cons x xs ih =>
    rw [List.forall_mem_cons, ← decodeString_isSome_iff, ← ih old.tail, decodeItems]
    cases decodeString (old.headD []) x <;> cases decodeItems old.tail xs <;> simp

theorem decodeRules_isSome_iff (old : List Str) : (decodeRules old v).isSome = true ↔ IsRules v := by
  cases v <;> simp [decodeRules, IsRules, decodeItems_isSome_iff]

/-! ### The files that the panel says to write -/

theorem encodable_hostPort {host : Str} (h : Encodable host) (port : ℤ) : Encodable (hostPort host port) :=
  (h.append (encodable_str ":")).append (decimal_encodable port)

theorem hostPort_ne_nil (host : Str) (port : ℤ) : hostPort host port ≠ [] := by
  simp [hostPort, str]

theorem clean_serverConfig {t : Tunnel} (ht : t.Clean R) : Clean R (.dict (generateHawalCoreServerConfig t)) :=
  clean_hawalConfig (sealed_hostPort (sealed_str _) _) (by decide) ht

theorem clean_clientConfig {t : Tunnel} (ht : t.Clean R) {ip : Str} (hip : Sealed ip) :
    Clean R (.dict (generateHawalCoreClientConfig t ip)) :=
  clean_hawalConfig (sealed_hostPort hip _) (by decide) ht

/-- The text of a dict is decoded as the dict. -/
theorem unmarshal_dumpsIn {fields : Fields} (h : Clean R (.dict fields)) (cfg : ConfigFile) :
    unmarshal R (dumpsIn .indented (.dict fields)) cfg = fields.foldlM decodeField cfg := by
  rw [unmarshal, loads_dumpsIn .indented h.loaded h.sound]
  rfl

variable {t : Tunnel} {files : Str → Option Str} {cfgPath : Str}

/-- A core that is started with a file for the server half. -/
theorem main_server (ht : t.Clean R) (hpath : cfgPath ≠ [])
    (hfile : files cfgPath = some (dumpsIn .indented (.dict (generateHawalCoreServerConfig t)))) :
    main R files (commandLine cfgPath) =
      if t.token.val = [] then none
      else (decodeRules [] t.ports).map fun rules => .server
        { bindAddr := hostPort (str "0.0.0.0") t.corePort
          ports := rules
          token := t.token.val
          enablePadding := t.snappy ≠ 0
          noDelay := t.nodelay ≠ 0 } := by
  have haddr := goString_of_encodable (encodable_hostPort (encodable_str "0.0.0.0") t.corePort)
  have hmode : goString (str "server") = str "server" := goString_of_encodable (encodable_str _)
  rw [main, commandLine, if_pos hpath, hfile, Option.bind_some, unmarshal_dumpsIn (clean_serverConfig ht)]
  cases hrules : decodeRules [] t.ports with
  | none =>
    simp [generateHawalCoreServerConfig, decodeField, str_inj, decodeString, decodeBool, Flags.file, hrules]
  | some rules =>
    simp [generateHawalCoreServerConfig, decodeField, str_inj, decodeString, decodeBool, Flags.file, hrules, haddr,
      hmode, goString_of_encodable t.token.property, hostPort_ne_nil]

/-- A core that is started with a file for the client half. -/
theorem main_client (ht : t.Clean R) {ip : Text} (hip : Sealed ip.val) (hpath : cfgPath ≠ [])
    (hfile : files cfgPath = some (dumpsIn .indented (.dict (generateHawalCoreClientConfig t ip.val)))) :
    main R files (commandLine cfgPath) =
      if t.token.val = [] then none
      else (decodeRules [] t.ports).map fun rules => .client
        { connectAddr := hostPort ip.val t.corePort
          ports := rules
          token := t.token.val
          enablePadding := t.snappy ≠ 0
          noDelay := t.nodelay ≠ 0 } := by
  have haddr := goString_of_encodable (encodable_hostPort ip.property t.corePort)
  have hmode : goString (str "client") = str "client" := goString_of_encodable (encodable_str _)
  rw [main, commandLine, if_pos hpath, hfile, Option.bind_some, unmarshal_dumpsIn (clean_clientConfig ht hip)]
  cases hrules : decodeRules [] t.ports with
  | none =>
    simp [generateHawalCoreClientConfig, decodeField, str_inj, decodeString, decodeBool, Flags.file, hrules]
  | some rules =>
    simp [generateHawalCoreClientConfig, decodeField, str_inj, decodeString, decodeBool, Flags.file, hrules, haddr,
      hmode, goString_of_encodable t.token.property, hostPort_ne_nil]

end Hawal.Core
