import Hawal.Agent.Daemon
import Hawal.Lib.JsonAscii

/-!
# Reading a sync answer

What `sync_tunnels` and `apply_configs` read out of the text of an answer: the items, with the defaults of keys
that they do not have, and the nonce of the agent. Only items with values of the types that a panel sends are
read; what `apply_configs` makes of others is left out.
-/

namespace Hawal.Agent

open Hawal.Lib Hawal.Lib.Python

/-- A string. -/
def string? : Json → Option Str
  | .str s => some s
  | _ => none

/-- An integer. -/
def int? : Json → Option ℤ
  | .int n => some n
  | _ => none

/-- A list of strings. -/
def strings? : Json → Option (List Str)
  | .list xs => xs.mapM string?
  | _ => none

/-- `json.dumps(command, separators=(",", ":"))`. -/
def dumpsCommand (command : List Str) : Str := dumpsIn .compact (.list (command.map .str))

/-- What an item says of its core. -/
def readJob (core : Str) (item : Fields) : Option Job :=
  if core = str "hawal" then
    some (.hawal ((Lib.Dict.get id item (str "config")).map fun config => dumpsIn .indented config))
  else if core = str "backhaul" then (string? (item.get "toml" (.str []))).map fun toml => .backhaul (some toml)
  else if core = str "paqet" then do
    let yaml ← string? (item.get "yaml" (.str []))
    let role ← string? (item.get "role" (.str (str "client")))
    let corePort ← int? (item.get "core_port" (.int 8888))
    some (.paqet (some yaml) role corePort)
  else if core = str "gost" then do
    let command ← strings? (item.get "command" (.list []))
    let role ← string? (item.get "role" (.str (str "client")))
    some (.gost (some command) role)
  else some .other

/-- An element of `configs`. -/
def readItem (item : Fields) : Option Item := do
  let tunnelId ← (Lib.Dict.get id item (str "tunnel_id")).bind string?
  let core ← string? (item.get "core_type" (.str (str "hawal")))
  let nonce ← int? (item.get "restart_nonce" (.int 0))
  let job ← readJob core item
  some ⟨tunnelId, nonce, job⟩

/-- The answer: its items and `int(data.get("agent_restart_nonce", 0) or 0)`. -/
def readAnswer (R : FloatReader) (answer : Str) : Option (List Item × ℤ) := do
  let data ← (loads R answer).bind Json.fields?
  let configs ← (data.get "configs" (.list [])).iter
  let items ← configs.mapM fun v => v.fields?.bind readItem
  let requested := data.get "agent_restart_nonce" (.int 0)
  let nonce ← (if requested.truthy then requested else .int 0).toInt
  some (items, nonce)

end Hawal.Agent
