import Hawal.Panel.Answer
import Hawal.Agent.Reading

/-!
# A sync over the wire

The agent reads out of the text of an answer exactly what the panel has put into it
(`sync_over_the_wire`): one item for each entry, with the content that its core is started from, and the nonce.
-/

namespace Hawal.Fleet

open Hawal.Lib Hawal.Lib.Python Hawal.Panel Hawal.Agent

variable {repr : Json → Str} {R : FloatReader} {db : Db}

/-- What the agent starts a core from, for a payload. -/
def jobOf (role : Role) : Payload → Job
  | .hawal config => .hawal (some (dumpsIn .indented (.dict config)))
  | .backhaul toml => .backhaul (some toml)
  | .paqet corePort _ yaml => .paqet (some yaml) role.word corePort
  | .gost command => .gost (some command) role.word

/-- The item that an entry is for the agent. -/
def itemOf (e : Panel.Entry) : Item := ⟨e.tunnelId.val, e.restartNonce, jobOf e.role e.payload⟩

theorem strings?_map (xs : List Str) : strings? (.list (xs.map .str)) = some xs := by
  show (xs.map Json.str).mapM string? = some xs
  induction xs with
  | nil => rfl
  | cons x xs ih => simp [List.mapM_cons, string?, ih]

/-- The agent reads an entry as the item that it is. -/
theorem readItem_entry (e : Panel.Entry) {fields : Fields} (h : e.json = .dict fields) :
    readItem fields = some (itemOf e) := by
  obtain ⟨tunnelId, role, payload, nonce⟩ := e
  cases h
  cases payload with
  | hawal config =>
    simp [readItem, readJob, itemOf, jobOf, Payload.fields, Fields.get, Lib.Dict.get, str_inj, string?, int?]
  | backhaul toml =>
    simp [readItem, readJob, itemOf, jobOf, Payload.fields, Fields.get, Lib.Dict.get, str_inj, string?, int?]
  | paqet corePort ports yaml =>
    cases ports with
    | none => simp [readItem, readJob, itemOf, jobOf, Payload.fields, Fields.get, Lib.Dict.get, str_inj, string?, int?]
    | some ports =>
      simp [readItem, readJob, itemOf, jobOf, Payload.fields, Fields.get, Lib.Dict.get, str_inj, string?, int?]
  | gost command =>
    simp [readItem, readJob, itemOf, jobOf, Payload.fields, Fields.get, Lib.Dict.get, str_inj, string?, int?,
      strings?_map]

theorem mapM_readItem (es : List Panel.Entry) :
    (es.map Panel.Entry.json).mapM (fun v => v.fields?.bind readItem) = some (es.map itemOf) := by
  induction es with
  | nil => rfl
  | cons e es ih =>
    have hread : e.json.fields?.bind readItem = some (itemOf e) := readItem_entry e rfl
    simp [List.mapM_cons, hread, ih]

/-- The text of an answer that can be read. -/
theorem readAnswer_text {es : List Panel.Entry} {nonce : ℤ} (h : Clean R (syncAnswer es nonce)) :
    readAnswer R (dumpsIn .spaced (syncAnswer es nonce)) = some (es.map itemOf, nonce) := by
  have hloads : loads R (dumpsIn .spaced (syncAnswer es nonce)) = some (syncAnswer es nonce) :=
    loads_dumpsIn .spaced h.loaded h.sound
  have hconfigs : Fields.get [(str "configs", .list (es.map Panel.Entry.json)), (str "agent_restart_nonce", .int nonce)]
      "configs" (.list []) = .list (es.map Panel.Entry.json) := by simp [Fields.get]
  have hnonce : Fields.get [(str "configs", .list (es.map Panel.Entry.json)), (str "agent_restart_nonce", .int nonce)]
      "agent_restart_nonce" (.int 0) = .int nonce := by simp [Fields.get, str_inj]
  have hint : (if (Json.int nonce).truthy then Json.int nonce else .int 0).toInt = some nonce := by
    by_cases hzero : nonce = 0
    · simp [hzero, Json.truthy, Json.toInt]
    · simp [hzero, Json.truthy, Json.toInt]
  have hdata : (syncAnswer es nonce).fields? =
      some [(str "configs", .list (es.map Panel.Entry.json)), (str "agent_restart_nonce", .int nonce)] := rfl
  simp only [readAnswer, hloads, Option.bind_some, hdata, Option.bind_eq_bind, hconfigs, hnonce, Json.iter,
    mapM_readItem, hint]

theorem syncText_eq_ok {token : Text} {es : List Panel.Entry} {nonce : ℤ}
    (h : agentSync repr db token = .ok (es, nonce)) :
    syncText repr db token = .ok (dumpsIn .spaced (syncAnswer es nonce)) :=
  bind_eq_ok.mpr ⟨(es, nonce), h, rfl⟩

/-- **A sync over the wire**: whatever requests were made before, the agent reads out of an answer the items that
its entries are and the nonce of its node. -/
theorem sync_over_the_wire (hR : FloatPrints R) (hrepr : ReprPrints repr) {rs : List Request}
    (hrs : ∀ r ∈ rs, r.Received R) (hshort : rs.length < 2 ^ 63) (hrun : exec serve Db.empty rs = some db)
    {token : Text} {es : List Panel.Entry} {nonce : ℤ} (hanswer : agentSync repr db token = .ok (es, nonce)) :
    ∃ answer, syncText repr db token = .ok answer ∧ readAnswer R answer = some (es.map itemOf, nonce) := by
  have hclean : Clean R (syncAnswer es nonce) :=
    clean_syncAnswer hrepr (clean_exec hR hrs clean_empty hrun) hshort (counted_exec hrun) hanswer
  exact ⟨_, syncText_eq_ok hanswer, readAnswer_text hclean⟩

theorem reprPrints_nil : ReprPrints fun _ => [] := fun _ => ⟨List.forall_mem_nil _, List.forall_mem_nil _⟩

/-- The token that the node of the example gets. -/
def exampleToken : Text := tokenHex 32 1

/-- The tunnel of the example is in the answer to its node, and is read. -/
theorem accentedTunnel_read : ∃ db es nonce, exec serve Db.empty accentedTunnel = some db ∧
    agentSync (fun _ => []) db exampleToken = .ok (es, nonce) ∧
    ∃ answer, syncText (fun _ => []) db exampleToken = .ok answer ∧
      readAnswer Settings.verbatim answer = some (es.map itemOf, nonce) := by
  obtain ⟨db, hrun, hok⟩ : ∃ db, exec serve Db.empty accentedTunnel = some db ∧
      (agentSync (fun _ => []) db exampleToken).isOk = true := exists_of_any (by decide +kernel)
  obtain ⟨⟨es, nonce⟩, hanswer⟩ : ∃ answer, agentSync (fun _ => []) db exampleToken = .ok answer := by
    cases h : agentSync (fun _ => []) db exampleToken with
    | ok answer => exact ⟨answer, rfl⟩
    | error e =>
      rw [h] at hok
      cases hok
  exact ⟨db, es, nonce, hrun, hanswer, sync_over_the_wire floatPrints_verbatim reprPrints_nil accentedTunnel_received
    (by decide) hrun hanswer⟩

end Hawal.Fleet
