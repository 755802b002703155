import Hawal.Fleet.Wire
import Hawal.Agent.Reconcile

/-!
# What the cores are started from

The contents that a panel sends for different cores begin differently (`engineOf`), so that the marker of a
process, which does not name the core, tells it all the same. An entry for a tunnel is always one from which
an agent can start a core (`ready_itemOf`).
-/

namespace Hawal.Fleet

open Hawal.Lib Hawal.Lib.Python Hawal.Panel Hawal.Agent

variable {repr : Json → Str} {db : Db}

/-- The core that a content is for, by how it begins. -/
def engineOf : Str → Option Engine
  | 123 :: _ => some .hawal
  | 35 :: _ => some .paqet
  | 91 :: 34 :: _ => some .gost
  | 91 :: _ => some .backhaul
  | _ => none

/-- The content of the launch is one for its core. -/
def Marked (l : Launch) : Prop := engineOf l.content = some l.engine

/-- The payload begins as its core's do. -/
def Payload.Proper : Payload → Prop
  | .hawal _ => True
  | .backhaul toml => ∃ c rest, toml = 91 :: c :: rest ∧ c ≠ 34
  | .paqet _ _ yaml => ∃ rest, yaml = 35 :: rest
  | .gost command => command ≠ []

theorem unlines_cons (c : ℕ) (l : Str) (ls : List Str) :
    unlines ((c :: l) :: ls) = c :: (l ++ str "\n" ++ unlines ls) := rfl

theorem proper_serverConfig {t : Tunnel} {toml : Str} (h : generateServerConfig repr t = some toml) :
    ∃ c rest, toml = 91 :: c :: rest ∧ c ≠ 34 := by
  have hhead : str "[server]" = 91 :: 115 :: str "erver]" := by decide
  obtain ⟨ports, -, h⟩ := Option.bind_eq_some_iff.mp h
  rw [← Option.some.inj h, hhead, unlines_cons]
  exact ⟨115, _, rfl, by decide⟩

theorem proper_clientConfig (t : Tunnel) (ip : Str) :
    ∃ c rest, generateClientConfig t ip = 91 :: c :: rest ∧ c ≠ 34 := by
  have hhead : str "[client]" = 91 :: 99 :: str "lient]" := by decide
  rw [generateClientConfig, hhead, unlines_cons]
  exact ⟨99, _, rfl, by decide⟩

theorem proper_paqetServerConfig (t : Tunnel) : ∃ rest, generatePaqetServerConfig t = 35 :: rest := by
  have hhead : str "# Hawal Paqet Server Config (Auto-Generated)" =
      35 :: str " Hawal Paqet Server Config (Auto-Generated)" := by decide
  rw [generatePaqetServerConfig, hhead, List.cons_append, unlines_cons]
  exact ⟨_, rfl⟩

theorem proper_paqetClientConfig {t : Tunnel} {ip yaml : Str} (h : generatePaqetClientConfig repr t ip = some yaml) :
    ∃ rest, yaml = 35 :: rest := by
  have hhead : str "# Hawal Paqet Client Config (Auto-Generated)" =
      35 :: str " Hawal Paqet Client Config (Auto-Generated)" := by decide
  obtain ⟨ports, -, h⟩ := Option.bind_eq_some_iff.mp h
  rw [← Option.some.inj h, hhead, List.cons_append, List.cons_append, List.cons_append, unlines_cons]
  exact ⟨_, rfl⟩

theorem proper_serverPayload {t : Tunnel} {p : Payload} (h : serverPayload repr t = some p) : Payload.Proper p := by
  unfold serverPayload at h
  split at h
  · cases h
    exact proper_paqetServerConfig t
  split at h
  · cases h
    exact List.cons_ne_nil _ _
  split at h
  · cases h
    trivial
  · obtain ⟨toml, htoml, rfl⟩ := Option.map_eq_some_iff.mp h
    exact proper_serverConfig htoml

theorem proper_clientPayload {t : Tunnel} {ip : Str} {p : Payload} (h : clientPayload repr t ip = some p) :
    Payload.Proper p := by
  unfold clientPayload at h
  split at h
  · obtain ⟨yaml, hyaml, rfl⟩ := Option.map_eq_some_iff.mp h
    exact proper_paqetClientConfig hyaml
  split at h
  · obtain ⟨command, hcommand, rfl⟩ := Option.map_eq_some_iff.mp h
    obtain ⟨ports, -, hcommand⟩ := Option.bind_eq_some_iff.mp hcommand
    rw [Payload.Proper, ← Option.some.inj hcommand]
    exact List.append_ne_nil_of_right_ne_nil _ (List.cons_ne_nil _ _)
  split at h
  · cases h
    trivial
  · cases h
    exact proper_clientConfig t ip

/-- What the loop of a sync adds begins as it must. -/
theorem proper_syncEntry {node : Node} {t : Tunnel} {e : Panel.Entry} (h : syncEntry repr db node t = some (some e)) :
    Payload.Proper e.payload := by
  have hrun : t.Running := (syncEntry_eq_some repr h).1
  rw [syncEntry_of_running repr hrun] at h
  split at h
  · obtain ⟨p, hp, he⟩ := Option.map_eq_some_iff.mp h
    cases he
    exact proper_serverPayload hp
  split at h
  · obtain ⟨p, hp, he⟩ := Option.map_eq_some_iff.mp h
    cases he
    exact proper_clientPayload hp
  · cases h

theorem ready_itemOf {e : Panel.Entry} (h : Payload.Proper e.payload) : (itemOf e).Ready := by
  obtain ⟨tunnelId, role, payload, nonce⟩ := e
  cases payload with
  | hawal config => exact rfl
  | backhaul toml => exact rfl
  | paqet corePort ports yaml => exact rfl
  | gost command =>
    obtain ⟨arg, args, rfl⟩ := List.exists_cons_of_ne_nil h
    exact ⟨arg, args, rfl⟩

/-- What has no brace at its start is not replaced there. -/
theorem replace_cons {c d : ℕ} (h : d ≠ c) (old new rest : Str) :
    replace (c :: old) new (d :: rest) = d :: replace (c :: old) new rest := by
  have hno : (c :: old).isPrefixOf (d :: rest) = false := by
    simp [List.isPrefixOf, h.symm]
  rw [replace, replaceFrom, hno]
  rfl

theorem fill_cons (net : Net) (rest : Str) : ∃ rest', fill net (35 :: rest) = 35 :: rest' := by
  have hmac : str "\x7b\x7bROUTER_MAC\x7d\x7d" = 123 :: str "\x7bROUTER_MAC\x7d\x7d" := by decide
  have hip : str "\x7b\x7bLOCAL_IP\x7d\x7d" = 123 :: str "\x7bLOCAL_IP\x7d\x7d" := by decide
  have hiface : str "\x7b\x7bINTERFACE\x7d\x7d" = 123 :: str "\x7bINTERFACE\x7d\x7d" := by decide
  have hne : (35 : ℕ) ≠ 123 := by decide
  rw [fill, hmac, hip, hiface, replace_cons hne, replace_cons hne, replace_cons hne]
  exact ⟨_, rfl⟩

theorem dumpsIn_dict (L : Layout) (fields : Fields) : ∃ rest, dumpsIn L (.dict fields) = 123 :: rest := by
  cases fields with
  | nil => exact ⟨[125], rfl⟩
  | cons f fields => exact ⟨_, rfl⟩

theorem dumpsCommand_cons (arg : Str) (args : List Str) : ∃ rest, dumpsCommand (arg :: args) = 91 :: 34 :: rest :=
  ⟨_, rfl⟩

/-- What an agent starts for an entry is marked. -/
theorem marked_offer {e : Panel.Entry} (h : Payload.Proper e.payload) {o : Outcome} {l : Launch}
    (hl : (itemOf e).offer dumpsCommand o = some l) : Marked l := by
  obtain ⟨tunnelId, role, payload, nonce⟩ := e
  cases payload with
  | hawal config =>
    cases hl
    obtain ⟨rest, hrest⟩ := dumpsIn_dict .indented config
    show engineOf (dumpsIn .indented (.dict config)) = some .hawal
    rw [hrest]
    rfl
  | backhaul toml =>
    cases hl
    obtain ⟨c, rest, htoml, hc⟩ := h
    show engineOf toml = some .backhaul
    rw [show toml = 91 :: c :: rest from htoml]
    unfold engineOf
    split <;> simp_all
  | paqet corePort ports yaml =>
    obtain ⟨net, -, hl⟩ := Option.bind_eq_some_iff.mp hl
    cases hl
    obtain ⟨rest, hyaml⟩ := h
    obtain ⟨rest', hfill⟩ := fill_cons net rest
    show engineOf (fill net yaml) = some .paqet
    rw [show yaml = 35 :: rest from hyaml, hfill]
    rfl
  | gost command =>
    obtain ⟨arg, args, rfl⟩ := List.exists_cons_of_ne_nil h
    cases hl
    obtain ⟨rest, hrest⟩ := dumpsCommand_cons arg args
    show engineOf (dumpsCommand (arg :: args)) = some .gost
    rw [hrest]
    rfl

end Hawal.Fleet
