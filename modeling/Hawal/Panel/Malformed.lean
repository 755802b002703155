import Hawal.Lib.JsonDepth
import Hawal.Panel.Answer
import Hawal.Panel.Effects

/-!
# Tunnels that break the sync

The routes that write a tunnel take any JSON value as its ports, and so does the column. At the
tunnel's server node the generators for backhaul, paqet and gost loop over the value, and when it
is a number, a truth value or `null` the loop raises. Hawal and paqet send the value itself, and
`json.dumps` raises when too many lists and dicts stand in one another. Either way
`GET /api/agent/sync` has no answer for the node at all, whatever other tunnels it has.

How many are too many depends on the version of Python and on the calls around: `Depths` has a parameter for each
place where the value is written, read or printed. The bodies are what `json.loads` has made of them.

* `db.Served` — every node gets its answer; `served_iff` says when this is so.
* `careful_iff_always_served` — which requests of a run keep it so.
-/

namespace Hawal.Panel

open Hawal.Lib Hawal.Lib.Python

variable (repr : Json → Str)

/-- How deep ports may be. -/
structure Depths where
  /-- `json.dumps` for the column. -/
  column : ℕ
  /-- `json.loads` of the column. -/
  row : ℕ
  /-- `json.dumps` of an answer, which has four levels of its own around the ports. -/
  answer : ℕ
  /-- `str` of a rule returns in the generator of this engine. -/
  shows : Text → Json → Bool

variable (depths : Depths)

/-- The ports that the request is to store. -/
def Request.ports? : Request → Option Json
  | .createTunnel _ _ body => (body.bind Json.fields?).map fun data =>
    data.get "ports" (.list [.str (str "443=127.0.0.1:443")])
  | .editTunnel _ body => (body.bind Json.fields?).map fun data => data.get "ports" (.list [])
  | _ => none

/-- `json.dumps` takes the ports of the request. -/
def Request.Dumps (r : Request) : Prop := (r.ports?.all fun v => v.shallow depths.column) = true

instance (r : Request) : Decidable (r.Dumps depths) := inferInstanceAs (Decidable (_ = true))

/-- The database after one request, where `json.dumps` can raise. -/
def serveWithin (db : Db) (r : Request) : Option Db := if r.Dumps depths then serve db r else some db

/-- A row as `list_tunnels` has it: ports that `json.loads` does not take are `[]`. -/
def Tunnel.read (t : Tunnel) : Tunnel := if t.ports.shallow depths.row = true then t else { t with ports := .list [] }

/-- The generator for this node loops over the ports. -/
def Tunnel.LoopsAt (t : Tunnel) (id : Text) : Prop :=
  t.Running ∧ t.coreType ≠ text "hawal" ∧ t.serverNodeId = id ∧ ¬ (t.Reversed ∧ t.clientNodeId = id)

instance (t : Tunnel) (id : Text) : Decidable (t.LoopsAt id) := inferInstanceAs (Decidable (_ ∧ _ ∧ _ ∧ ¬ (_ ∧ _)))

/-- The rules of which the generator for this node takes `str`. -/
def Tunnel.rulesAt (t : Tunnel) (id : Text) : List Json := if t.LoopsAt id then t.ports.iter.getD [] else []

/-- `GET /api/agent/sync` up to the text of its answer. -/
def agentSyncWithin (db : Db) (token : Text) : Except Failure (List Entry × ℤ) :=
  match db.getNodeByToken token with
  | none => .error (.refused 401 (str "unauthorized"))
  | some node =>
    let tunnels := db.listTunnels.map (Tunnel.read depths)
    if tunnels.all fun t => (t.rulesAt node.id).all (depths.shows t.coreType) then do
      let es ← orRaise (syncConfigs repr db node tunnels)
      if (syncAnswer es node.agentRestartNonce).shallow (depths.answer + 4) then .ok (es, node.agentRestartNonce)
      else .error .raised
    else .error .raised

/-- The answer to each node has an entry for every running tunnel that ends there. -/
def Db.Served (db : Db) : Prop :=
  ∀ n ∈ db.nodes, ∃ es k, agentSyncWithin repr depths db n.token = .ok (es, k) ∧
    ∀ t ∈ db.tunnels, t.Running → t.serverNodeId = n.id ∨ t.clientNodeId = n.id → ∃ e ∈ es, e.tunnelId = t.id

/-- The configuration for the tunnel's server node cannot be made. -/
def Tunnel.Chokes (t : Tunnel) : Prop :=
  t.Running ∧ t.coreType ≠ text "hawal" ∧ t.ports.iter.isNone = true ∧ ¬ (t.Reversed ∧ t.clientNodeId = t.serverNodeId)

instance (t : Tunnel) : Decidable t.Chokes := inferInstanceAs (Decidable (_ ∧ _ ∧ _ ∧ ¬ (_ ∧ _)))

/-- There is a tunnel that chokes, and the node to choke on it. -/
def Db.Choked (db : Db) : Prop := ∃ t ∈ db.tunnels.rows, t.Chokes ∧ db.HasNode t.serverNodeId

instance (db : Db) : Decidable db.Choked :=
  inferInstanceAs (Decidable (∃ t ∈ db.tunnels.rows, t.Chokes ∧ db.HasNode t.serverNodeId))

/-- `str` of a rule raises at this node. -/
def Tunnel.HidesAt (t : Tunnel) (id : Text) : Prop := ∃ rule ∈ t.rulesAt id, depths.shows t.coreType rule = false

instance (t : Tunnel) (id : Text) : Decidable (t.HidesAt depths id) :=
  inferInstanceAs (Decidable (∃ rule ∈ t.rulesAt id, _))

/-- The ports are too deep for the answer to this node. Both halves of hawal have them, one level further
inside, and the client half of paqet. -/
def Tunnel.SinksAt (t : Tunnel) (id : Text) : Prop :=
  t.Running ∧ (t.listener = id ∨ t.dialer = id) ∧
    (t.coreType = text "hawal" ∧ t.ports.shallow depths.answer ≠ true ∨
      t.coreType = text "paqet" ∧ t.listener ≠ id ∧ t.ports.shallow (depths.answer + 1) ≠ true)

instance (t : Tunnel) (id : Text) : Decidable (t.SinksAt depths id) :=
  inferInstanceAs (Decidable (_ ∧ (_ ∨ _) ∧ (_ ∧ _ ∨ _ ∧ _ ∧ _)))

/-- A row as it is read that leaves this node without an answer. -/
def Tunnel.BreaksAt (t : Tunnel) (id : Text) : Prop :=
  t.Chokes ∧ t.serverNodeId = id ∨ t.HidesAt depths id ∨ t.SinksAt depths id

instance (t : Tunnel) (id : Text) : Decidable (t.BreaksAt depths id) :=
  inferInstanceAs (Decidable (_ ∧ _ ∨ _ ∨ _))

/-- There is a node without an answer, and the tunnel whose fault it is. -/
def Db.Broken (db : Db) : Prop :=
  ∃ t ∈ db.tunnels.rows, ∃ n ∈ db.nodes.rows, (t.read depths).BreaksAt depths n.id

instance (db : Db) : Decidable (db.Broken depths) :=
  inferInstanceAs (Decidable (∃ t ∈ db.tunnels.rows, ∃ n ∈ db.nodes.rows, _))

/-- What the request writes leaves no node without its answer. -/
def SafePorts (db : Db) : Request → Prop
  | .createNode id token located body => ∀ n, AddsNode db id token located body n →
    ∀ t ∈ db.tunnels, ¬ (t.read depths).BreaksAt depths n.id
  | .createTunnel id token body => ∀ t, AddsTunnel db id token body t →
    ∀ k, db.HasNode k → ¬ (t.read depths).BreaksAt depths k
  | .editTunnel id body => ∀ t e, Edits db id body t e →
    ∀ k, db.HasNode k → ¬ ((e.apply t).read depths).BreaksAt depths k
  | .setStatus id body => ∀ t status, SetsStatus db id body t status →
    ∀ k, db.HasNode k → ¬ (({ t with status := status } : Tunnel).read depths).BreaksAt depths k
  | _ => True

/-- The same of a request of which `json.dumps` may raise before anything is written. -/
def CarefulPorts (db : Db) (r : Request) : Prop := r.Dumps depths → SafePorts depths db r

/-! ### Answers -/

variable {db db' : Db} {node : Node} {t : Tunnel}

theorem isNone_bind_some {α β : Type} (o : Option α) (f : α → β) :
    (o.bind fun a => some (f a)) = none ↔ o.isNone = true := by
  cases o <;> simp

theorem serverPayload_eq_none : serverPayload repr t = none ↔
    t.coreType ≠ text "paqet" ∧ t.coreType ≠ text "gost" ∧ t.coreType ≠ text "hawal" ∧ t.ports.iter.isNone = true := by
  unfold serverPayload
  by_cases hp : t.coreType = text "paqet"
  · rw [if_pos hp]
    exact iff_of_false (by simp) fun h => h.1 hp
  by_cases hg : t.coreType = text "gost"
  · rw [if_neg hp, if_pos hg]
    exact iff_of_false (by simp) fun h => h.2.1 hg
  by_cases hh : t.coreType = text "hawal"
  · rw [if_neg hp, if_neg hg, if_pos hh]
    exact iff_of_false (by simp) fun h => h.2.2.1 hh
  · rw [if_neg hp, if_neg hg, if_neg hh, Option.map_eq_none_iff, and_iff_right hp, and_iff_right hg, and_iff_right hh]
    exact isNone_bind_some _ _

theorem clientPayload_eq_none (ip : Str) :
    clientPayload repr t ip = none ↔ t.Reversed ∧ t.ports.iter.isNone = true := by
  unfold clientPayload Tunnel.Reversed
  by_cases hp : t.coreType = text "paqet"
  · rw [if_pos hp, Option.map_eq_none_iff, and_iff_right (Or.inl hp)]
    unfold generatePaqetClientConfig parsePortsList
    cases t.ports.iter <;> simp
  by_cases hg : t.coreType = text "gost"
  · rw [if_neg hp, if_pos hg, Option.map_eq_none_iff, and_iff_right (Or.inr hg)]
    exact isNone_bind_some _ _
  · simp only [if_neg hp, if_neg hg]
    split <;> simp [hp, hg]

/-- The entry for a tunnel raises exactly at the server node of one that chokes. -/
theorem syncEntry_eq_none : syncEntry repr db node t = none ↔ t.Chokes ∧ t.serverNodeId = node.id := by
  by_cases hrun : t.Running
  · rw [syncEntry_of_running repr hrun, Tunnel.Chokes, and_iff_right hrun]
    have hhawal : t.Reversed → t.coreType ≠ text "hawal" := by
      rintro (hp | hg) hh
      · exact absurd (hp.symm.trans hh) (by decide)
      · exact absurd (hg.symm.trans hh) (by decide)
    by_cases hrev : t.Reversed
    · have hserver : serverPayload repr t ≠ none := fun hnone => by
        obtain ⟨hp, hg, -⟩ := (serverPayload_eq_none repr).mp hnone
        exact hrev.elim hp hg
      simp only [Tunnel.listener, Tunnel.dialer, if_pos hrev]
      by_cases hc : t.clientNodeId = node.id
      · rw [if_pos hc, Option.map_eq_none_iff]
        refine iff_of_false hserver ?_
        rintro ⟨⟨-, -, hapart⟩, hs⟩
        exact hapart ⟨hrev, hc.trans hs.symm⟩
      by_cases hs : t.serverNodeId = node.id
      · have hapart : ¬ (t.Reversed ∧ t.clientNodeId = t.serverNodeId) := fun h => hc (h.2.trans hs)
        rw [if_neg hc, if_pos hs, Option.map_eq_none_iff, clientPayload_eq_none, and_iff_left hs, and_iff_right hrev,
          and_iff_right (hhawal hrev), and_iff_left hapart]
      · rw [if_neg hc, if_neg hs]
        exact iff_of_false (by simp) fun h => hs h.2
    · have hclient : ∀ ip, clientPayload repr t ip ≠ none := fun ip hnone =>
        hrev ((clientPayload_eq_none repr ip).mp hnone).1
      simp only [Tunnel.listener, Tunnel.dialer, if_neg hrev]
      by_cases hs : t.serverNodeId = node.id
      · have hcore := not_or.mp hrev
        have hapart : ¬ (t.Reversed ∧ t.clientNodeId = t.serverNodeId) := fun h => hrev h.1
        rw [if_pos hs, Option.map_eq_none_iff, serverPayload_eq_none, and_iff_left hs, and_iff_left hapart,
          and_iff_right hcore.1, and_iff_right hcore.2]
      · rw [if_neg hs]
        refine iff_of_false ?_ fun h => hs h.2
        split
        · rw [Option.map_eq_none_iff]
          exact hclient _
        · simp
  · rw [syncEntry_of_not_running repr hrun]
    exact iff_of_false (by simp) fun h => hrun h.1.1

theorem syncConfigs_eq_none {ts : List Tunnel} :
    syncConfigs repr db node ts = none ↔ ∃ t ∈ ts, syncEntry repr db node t = none := by
  induction ts with
  | nil => simp [syncConfigs]
  | cons t ts ih =>
    simp only [syncConfigs, Option.bind_eq_bind, List.exists_mem_cons_iff, ← ih]
    cases syncEntry repr db node t with
    | none => simp
    | some e => cases syncConfigs repr db node ts <;> simp

/-- What the loop adds for a row is in what it returns. -/
theorem mem_syncConfigs_of {ts : List Tunnel} {e : Entry} : ∀ {es : List Entry}, syncConfigs repr db node ts = some es →
    t ∈ ts → syncEntry repr db node t = some (some e) → e ∈ es := by
  induction ts with
  | nil => exact fun _ ht => absurd ht List.not_mem_nil
  | cons t₀ ts ih =>
    intro es h ht he
    obtain ⟨o, rest, ho, hrest, rfl⟩ := (syncConfigs_cons repr).mp h
    rw [List.mem_append]
    rcases List.mem_cons.mp ht with rfl | ht
    · rw [he, Option.some.injEq] at ho
      exact .inl (ho ▸ List.mem_cons_self)
    · exact .inr (ih hrest ht he)

/-- A running tunnel that ends at the node has an entry, when it does not raise. -/
theorem exists_entry (hrun : t.Running) (hend : t.serverNodeId = node.id ∨ t.clientNodeId = node.id)
    (hgood : syncEntry repr db node t ≠ none) : ∃ e, syncEntry repr db node t = some (some e) := by
  have hends : t.listener = node.id ∨ t.dialer = node.id := by
    unfold Tunnel.listener Tunnel.dialer
    split
    · exact hend.symm
    · exact hend
  rw [syncEntry_of_running repr hrun] at hgood ⊢
  split at hgood
  · rename_i hl
    obtain ⟨o, ho⟩ := Option.ne_none_iff_exists'.mp hgood
    obtain ⟨p, hp, -⟩ := Option.map_eq_some_iff.mp ho
    exact ⟨t.entry .server p, by rw [if_pos hl, hp]; rfl⟩
  · rename_i hl
    have hd := hends.resolve_left hl
    rw [if_pos hd] at hgood
    obtain ⟨o, ho⟩ := Option.ne_none_iff_exists'.mp hgood
    obtain ⟨p, hp, -⟩ := Option.map_eq_some_iff.mp ho
    exact ⟨t.entry .client p, by rw [if_neg hl, if_pos hd, hp]; rfl⟩

theorem exists_syncConfigs_of (hgood : ¬ db.Choked) (hn : node ∈ db.nodes) :
    ∃ es, syncConfigs repr db node db.listTunnels = some es := by
  refine Option.ne_none_iff_exists'.mp fun hnone => ?_
  obtain ⟨t, ht, hraised⟩ := (syncConfigs_eq_none repr).mp hnone
  obtain ⟨hchokes, hid⟩ := (syncEntry_eq_none repr).mp hraised
  exact hgood ⟨t, ht, hchokes, Db.hasNode_iff.mpr ⟨node, hn, hid.symm⟩⟩

/-! ### The depth of an answer -/

variable {depths}

theorem itemsShallow_strings (room : ℕ) (args : List Str) : itemsShallow room (args.map .str) = true := by
  induction args with
  | nil => rfl
  | cons arg args ih => exact ih

/-- The depth of what runs at the listener. -/
theorem shallow_serverPayload (room : ℕ) {p : Payload} (h : serverPayload repr t = some p) :
    fieldsShallow (room + 1) p.fields.2 = true ↔ (t.coreType = text "hawal" → t.ports.shallow room = true) := by
  unfold serverPayload at h
  split at h
  · rename_i hp
    cases h
    exact iff_of_true rfl fun hh => absurd (hp.symm.trans hh) (by decide)
  split at h
  · rename_i hg
    cases h
    exact iff_of_true rfl fun hh => absurd (hg.symm.trans hh) (by decide)
  split at h
  · rename_i hh
    cases h
    simp [Payload.fields, generateHawalCoreServerConfig, fieldsShallow, Json.shallow, hh]
  · rename_i hh
    obtain ⟨toml, -, rfl⟩ := Option.map_eq_some_iff.mp h
    exact iff_of_true rfl fun hh' => absurd hh' hh

/-- The depth of what runs at the dialer. -/
theorem shallow_clientPayload (room : ℕ) {ip : Str} {p : Payload} (h : clientPayload repr t ip = some p) :
    fieldsShallow (room + 1) p.fields.2 = true ↔
      (t.coreType = text "hawal" → t.ports.shallow room = true) ∧
        (t.coreType = text "paqet" → t.ports.shallow (room + 1) = true) := by
  unfold clientPayload at h
  split at h
  · rename_i hp
    obtain ⟨yaml, -, rfl⟩ := Option.map_eq_some_iff.mp h
    have hh : t.coreType ≠ text "hawal" := fun hh => absurd (hp.symm.trans hh) (by decide)
    have hports : fieldsShallow (room + 1) (Payload.paqet t.corePort (some t.ports) yaml).fields.2 =
        t.ports.shallow (room + 1) := by
      simp [Payload.fields, fieldsShallow, Json.shallow]
    rw [hports]
    exact ⟨fun hshallow => ⟨fun hh' => absurd hh' hh, fun _ => hshallow⟩, fun h => h.2 hp⟩
  split at h
  · rename_i hp hg
    obtain ⟨command, -, rfl⟩ := Option.map_eq_some_iff.mp h
    have hh : t.coreType ≠ text "hawal" := fun hh => absurd (hg.symm.trans hh) (by decide)
    have hargs : fieldsShallow (room + 1) (Payload.gost command).fields.2 = true := by
      simp [Payload.fields, fieldsShallow, Json.shallow, itemsShallow_strings]
    exact iff_of_true hargs ⟨fun hh' => absurd hh' hh, fun hp' => absurd hp' hp⟩
  split at h
  · rename_i hp hg hh
    cases h
    have hports : fieldsShallow (room + 1) (Payload.hawal (generateHawalCoreClientConfig t ip)).fields.2 =
        t.ports.shallow room := by
      simp [Payload.fields, generateHawalCoreClientConfig, fieldsShallow, Json.shallow]
    rw [hports]
    exact ⟨fun hshallow => ⟨fun _ => hshallow, fun hp' => absurd hp' hp⟩, fun h => h.1 hh⟩
  · rename_i hp hg hh
    cases h
    exact iff_of_true rfl ⟨fun hh' => absurd hh' hh, fun hp' => absurd hp' hp⟩

/-- What the row has in the answer to the node can be encoded exactly if its ports are not too deep. -/
theorem shallow_syncEntry {o : Option Entry} (h : syncEntry repr db node t = some o) :
    (∀ e ∈ o, fieldsShallow (depths.answer + 1) e.payload.fields.2 = true) ↔ ¬ t.SinksAt depths node.id := by
  by_cases hrun : t.Running
  · rw [syncEntry_of_running repr hrun] at h
    rw [Tunnel.SinksAt, and_iff_right hrun]
    split at h
    · rename_i hl
      obtain ⟨p, hp, rfl⟩ := Option.map_eq_some_iff.mp h
      simp only [Option.mem_def, Option.some.injEq, forall_eq', Tunnel.entry]
      rw [shallow_serverPayload repr depths.answer hp, and_iff_right (Or.inl hl)]
      simp [hl]
    · rename_i hl
      split at h
      · rename_i hd
        obtain ⟨p, hp, rfl⟩ := Option.map_eq_some_iff.mp h
        simp only [Option.mem_def, Option.some.injEq, forall_eq', Tunnel.entry]
        rw [shallow_clientPayload repr depths.answer hp, and_iff_right (Or.inr hd)]
        simp [hl]
      · rename_i hd
        cases h
        exact iff_of_true (fun e he => absurd he (by simp)) fun hsinks => hsinks.1.elim hl hd
  · rw [syncEntry_of_not_running repr hrun] at h
    cases h
    exact iff_of_true (fun e he => absurd he (by simp)) fun hsinks => hrun hsinks.1

theorem shallow_entries {es : List Entry} : itemsShallow (depths.answer + 2) (es.map Entry.json) = true ↔
    ∀ e ∈ es, fieldsShallow (depths.answer + 1) e.payload.fields.2 = true := by
  induction es with
  | nil => exact iff_of_true rfl (List.forall_mem_nil _)
  | cons e es ih =>
    rw [List.map_cons, itemsShallow, Bool.and_eq_true, ih, List.forall_mem_cons]
    refine and_congr ?_ Iff.rfl
    have hroom : depths.answer + 2 - 1 = depths.answer + 1 := rfl
    simp only [Entry.json, Json.shallow, hroom, Bool.and_eq_true, decide_eq_true_eq, fieldsShallow_iff]
    simp [Json.shallow, or_imp, forall_and]

/-- An answer can be encoded exactly if no row is too deep for it. -/
theorem shallow_syncAnswer {ts : List Tunnel} {es : List Entry} (h : syncConfigs repr db node ts = some es) (k : ℤ) :
    (syncAnswer es k).shallow (depths.answer + 4) = true ↔ ∀ t ∈ ts, ¬ t.SinksAt depths node.id := by
  have hanswer : (syncAnswer es k).shallow (depths.answer + 4) = itemsShallow (depths.answer + 2) (es.map Entry.json) := by
    simp [syncAnswer, Json.shallow, fieldsShallow]
  rw [hanswer, shallow_entries]
  constructor
  · intro hes t ht
    have hsome : syncEntry repr db node t ≠ none := fun hnone => by
      rw [(syncConfigs_eq_none repr).mpr ⟨t, ht, hnone⟩] at h
      cases h
    obtain ⟨o, ho⟩ := Option.ne_none_iff_exists'.mp hsome
    refine (shallow_syncEntry repr ho).mp fun e he => hes e ?_
    rw [Option.mem_def] at he
    exact mem_syncConfigs_of repr h ht (he ▸ ho)
  · intro hgood e he
    obtain ⟨t, ht, hentry⟩ := mem_syncConfigs repr h e he
    exact (shallow_syncEntry repr hentry).mpr (hgood t ht) e rfl

/-! ### When the sync works -/

@[simp] theorem id_read (t : Tunnel) : (t.read depths).id = t.id := by
  unfold Tunnel.read
  split <;> rfl

@[simp] theorem serverNodeId_read (t : Tunnel) : (t.read depths).serverNodeId = t.serverNodeId := by
  unfold Tunnel.read
  split <;> rfl

@[simp] theorem clientNodeId_read (t : Tunnel) : (t.read depths).clientNodeId = t.clientNodeId := by
  unfold Tunnel.read
  split <;> rfl

@[simp] theorem running_read (t : Tunnel) : (t.read depths).Running ↔ t.Running := by
  unfold Tunnel.read
  split <;> rfl

/-- The sync of a node is answered exactly if no row breaks it there. -/
theorem agentSyncWithin_eq_ok (hn : node ∈ db.nodes) {es : List Entry} {k : ℤ} :
    agentSyncWithin repr depths db node.token = .ok (es, k) ↔
      (∀ t ∈ db.tunnels, ¬ (t.read depths).HidesAt depths node.id ∧ ¬ (t.read depths).SinksAt depths node.id) ∧
        syncConfigs repr db node (db.listTunnels.map (Tunnel.read depths)) = some es ∧ k = node.agentRestartNonce := by
  have hshown : ((db.listTunnels.map (Tunnel.read depths)).all fun t =>
      (t.rulesAt node.id).all (depths.shows t.coreType)) = true ↔
      ∀ t ∈ db.tunnels, ¬ (t.read depths).HidesAt depths node.id := by
    simp only [List.all_map, List.all_eq_true, Function.comp_apply, Tunnel.HidesAt, not_exists, not_and,
      Bool.not_eq_false]
    exact Iff.rfl
  have hdepth : ∀ {es : List Entry},
      syncConfigs repr db node (db.listTunnels.map (Tunnel.read depths)) = some es →
      ((syncAnswer es node.agentRestartNonce).shallow (depths.answer + 4) = true ↔
        ∀ t ∈ db.tunnels, ¬ (t.read depths).SinksAt depths node.id) := fun hes => by
    rw [shallow_syncAnswer repr hes, List.forall_mem_map]
    exact Iff.rfl
  simp only [agentSyncWithin, getNodeByToken_token hn, forall_and]
  constructor
  · intro h
    split at h
    · rename_i hshow
      obtain ⟨es', hes, h⟩ := bind_eq_ok.mp h
      rw [orRaise_eq_ok] at hes
      split at h
      · rename_i hroom
        cases h
        exact ⟨⟨hshown.mp hshow, (hdepth hes).mp hroom⟩, hes, rfl⟩
      · cases h
    · cases h
  · rintro ⟨⟨hhides, hsinks⟩, hes, rfl⟩
    rw [if_pos (hshown.mpr hhides), hes]
    exact if_pos ((hdepth hes).mpr hsinks)

/-- **When the sync works**: every node is served exactly if no row breaks the sync of an existing node. -/
theorem served_iff : db.Served repr depths ↔ ¬ db.Broken depths := by
  constructor
  · rintro hserved ⟨t, ht, n, hn, hbreaks⟩
    obtain ⟨es, k, hok, -⟩ := hserved n hn
    obtain ⟨hgood, hes, -⟩ := (agentSyncWithin_eq_ok repr hn).mp hok
    rcases hbreaks with hchokes | hhides | hsinks
    · have hnone : syncConfigs repr db n (db.listTunnels.map (Tunnel.read depths)) = none :=
        (syncConfigs_eq_none repr).mpr ⟨t.read depths, List.mem_map_of_mem ht, (syncEntry_eq_none repr).mpr hchokes⟩
      rw [hes] at hnone
      cases hnone
    · exact (hgood t ht).1 hhides
    · exact (hgood t ht).2 hsinks
  · intro hgood n hn
    have hrow : ∀ t ∈ db.tunnels, ¬ (t.read depths).BreaksAt depths n.id := fun t ht hbreaks =>
      hgood ⟨t, ht, n, hn, hbreaks⟩
    have hentries : ∀ t ∈ db.tunnels, syncEntry repr db n (t.read depths) ≠ none := fun t ht hnone =>
      hrow t ht (.inl ((syncEntry_eq_none repr).mp hnone))
    have hconfigs : syncConfigs repr db n (db.listTunnels.map (Tunnel.read depths)) ≠ none := fun hnone => by
      obtain ⟨r, hr, hraised⟩ := (syncConfigs_eq_none repr).mp hnone
      obtain ⟨t, ht, rfl⟩ := List.mem_map.mp hr
      exact hentries t ht hraised
    obtain ⟨es, hes⟩ := Option.ne_none_iff_exists'.mp hconfigs
    refine ⟨es, n.agentRestartNonce, (agentSyncWithin_eq_ok repr hn).mpr ⟨fun t ht => ?_, hes, rfl⟩,
      fun t ht hrun hend => ?_⟩
    · exact ⟨fun h => hrow t ht (.inr (.inl h)), fun h => hrow t ht (.inr (.inr h))⟩
    · obtain ⟨e, he⟩ := exists_entry repr ((running_read t).mpr hrun) (by simpa using hend) (hentries t ht)
      have hid := (syncEntry_eq_some repr he).2.1
      rw [id_read] at hid
      exact ⟨e, mem_syncConfigs_of repr hes (List.mem_map_of_mem ht) he, hid⟩

/-! ### Requests -/

/-- What of a row decides which nodes it breaks. -/
def Tunnel.look (t : Tunnel) : Face × Json := (t.face, t.ports)

theorem look_read {t o : Tunnel} (h : t.look = o.look) : (t.read depths).look = (o.read depths).look := by
  obtain ⟨hface, hports⟩ := Prod.mk.injEq .. ▸ h
  unfold Tunnel.read
  rw [hports]
  split
  · exact h
  · exact Prod.ext hface rfl

theorem breaksAt_congr {t o : Tunnel} (h : t.look = o.look) (id : Text) :
    t.BreaksAt depths id ↔ o.BreaksAt depths id := by
  cases t
  cases o
  simp only [Tunnel.look, Tunnel.face, Prod.mk.injEq, Face.mk.injEq] at h
  obtain ⟨⟨rfl, rfl, rfl, rfl, rfl, rfl⟩, rfl⟩ := h
  exact Iff.rfl

theorem broken_iff : db.Broken depths ↔ ∃ t ∈ db.tunnels, ∃ k, db.HasNode k ∧ (t.read depths).BreaksAt depths k := by
  constructor
  · rintro ⟨t, ht, n, hn, hbreaks⟩
    exact ⟨t, ht, n.id, Db.hasNode_iff.mpr ⟨n, hn, rfl⟩, hbreaks⟩
  · rintro ⟨t, ht, k, hk, hbreaks⟩
    obtain ⟨n, hn, rfl⟩ := Db.hasNode_iff.mp hk
    exact ⟨t, ht, n, hn, hbreaks⟩

/-- Rows that look the same break the same nodes. -/
theorem broken_of_looks (hnodes : ∀ id, db'.HasNode id → db.HasNode id)
    (hlooks : db'.tunnels.rows.map Tunnel.look = db.tunnels.rows.map Tunnel.look) (h : db'.Broken depths) :
    db.Broken depths := by
  obtain ⟨t, ht, k, hk, hbreaks⟩ := broken_iff.mp h
  have hmem : t.look ∈ db.tunnels.rows.map Tunnel.look := hlooks ▸ List.mem_map_of_mem ht
  obtain ⟨o, ho, hlook⟩ := List.mem_map.mp hmem
  exact broken_iff.mpr ⟨o, ho, k, hnodes k hk, (breaksAt_congr (look_read hlook) k).mpr hbreaks⟩

theorem looks_updateTunnelRow {id : Text} {f : Tunnel → Tunnel} (hf : ∀ t, (f t).id = t.id)
    (hlook : ∀ t, (f t).look = t.look) :
    (db.updateTunnelRow id f hf).tunnels.rows.map Tunnel.look = db.tunnels.rows.map Tunnel.look :=
  Table.map_ite hlook id db.tunnels.rows

/-- Updating a row that is not there changes none. -/
theorem rows_of_getTunnel_none {id : Text} {f : Tunnel → Tunnel} (hf : ∀ t, (f t).id = t.id)
    (ht : db.getTunnel id = none) : (db.updateTunnelRow id f hf).tunnels.rows = db.tunnels.rows := by
  have hne := Table.find_eq_none.mp ht
  show db.tunnels.rows.map _ = db.tunnels.rows
  refine (List.map_congr_left fun r hr => ?_).trans (List.map_id _)
  exact if_neg (hne r hr)

theorem looks_addReports (reps : List Json) : ∀ db : Db,
    (addReports db reps).2.tunnels.rows.map Tunnel.look = db.tunnels.rows.map Tunnel.look := by
  induction reps with
  | nil => exact fun _ => rfl
  | cons rep reps ih =>
    intro db
    rw [addReports]
    split
    · rfl
    · exact ih db
    · refine (ih _).trans ?_
      unfold Db.updateTunnelTraffic
      exact looks_updateTunnelRow _ fun _ => rfl

theorem looks_settle {x : Except Failure Db}
    (h : ∀ db', x = .ok db' → db'.tunnels.rows.map Tunnel.look = db.tunnels.rows.map Tunnel.look) :
    (settle db x).2.tunnels.rows.map Tunnel.look = db.tunnels.rows.map Tunnel.look := by
  rcases settle_cases db x with ⟨db', hok, hr⟩ | ⟨-, hr⟩
  · rw [hr]
    exact h db' hok
  · rw [hr]

/-- A row in the place of another breaks a node exactly if it does so itself. -/
theorem broken_of_replaces {new : Tunnel} (h : Replaces db db' new) (hgood : ¬ db.Broken depths) :
    ¬ db'.Broken depths ↔ ∀ k, db.HasNode k → ¬ (new.read depths).BreaksAt depths k := by
  rw [broken_iff] at hgood ⊢
  constructor
  · exact fun hgood' k hk hbreaks => hgood' ⟨new, (h.tunnels new).mpr (.inl rfl), k, (h.nodes k).mpr hk, hbreaks⟩
  · rintro hnew ⟨t, ht, k, hk, hbreaks⟩
    rw [h.nodes] at hk
    rcases (h.tunnels t).mp ht with rfl | ⟨ht, -⟩
    · exact hnew k hk hbreaks
    · exact hgood ⟨t, ht, k, hk, hbreaks⟩

theorem broken_createNode (hgood : ¬ db.Broken depths) (id : BitVec 32) (token : BitVec 128) (located : Bool)
    (body : Option Json) :
    (∀ n, AddsNode db id token located body n → ∀ t ∈ db.tunnels, ¬ (t.read depths).BreaksAt depths n.id) ↔
      ¬ (route db (.createNode id token located body)).2.Broken depths := by
  rcases route_createNode db id token located body with ⟨n, hadd, htunnels, hnodes⟩ | ⟨hno, hdb⟩
  · rw [broken_iff] at hgood ⊢
    constructor
    · rintro hcare ⟨t, ht, k, hk, hbreaks⟩
      rw [htunnels] at ht
      rcases (hnodes k).mp hk with hk | rfl
      · exact hgood ⟨t, ht, k, hk, hbreaks⟩
      · exact hcare n ((hadd n).mpr rfl) t ht hbreaks
    · intro hgood' n' hn' t ht hbreaks
      rw [(hadd n').mp hn'] at hbreaks
      refine hgood' ⟨t, ?_, n.id, (hnodes _).mpr (.inr rfl), hbreaks⟩
      rw [htunnels]
      exact ht
  · refine iff_of_true (fun n hn => absurd hn (hno n)) ?_
    rw [hdb]
    exact hgood

theorem broken_createTunnel (hgood : ¬ db.Broken depths) (id : BitVec 32) (token : BitVec 64) (body : Option Json) :
    (∀ t, AddsTunnel db id token body t → ∀ k, db.HasNode k → ¬ (t.read depths).BreaksAt depths k) ↔
      ¬ (route db (.createTunnel id token body)).2.Broken depths := by
  rcases settle_cases db (createTunnel db id token body) with ⟨db', hok, hr⟩ | ⟨hno, hr⟩
  · obtain ⟨t, hadd, rfl⟩ := createTunnel_eq_ok.mp hok
    obtain ⟨new, hface, hports, hrep⟩ := exists_saveTunnel db t
    have hlook : new.look = t.look := Prod.ext hface hports
    have hafter : ¬ (route db (.createTunnel id token body)).2.Broken depths ↔
        ∀ k, db.HasNode k → ¬ (new.read depths).BreaksAt depths k := hr ▸ broken_of_replaces hrep hgood
    simp only [hafter, breaksAt_congr (look_read hlook)]
    constructor
    · exact fun hcare => hcare t hadd
    · intro hsafe t' ht'
      rw [hadd.unique ht']
      exact hsafe
  · have hafter : (route db (.createTunnel id token body)).2 = db := hr
    rw [hafter]
    exact iff_of_true (fun t hadd => absurd (createTunnel_eq_ok.mpr ⟨t, hadd, rfl⟩) (hno _)) hgood

theorem broken_editTunnel (hgood : ¬ db.Broken depths) (id : Text) (body : Option Json) :
    (∀ t e, Edits db id body t e → ∀ k, db.HasNode k → ¬ ((e.apply t).read depths).BreaksAt depths k) ↔
      ¬ (route db (.editTunnel id body)).2.Broken depths := by
  rcases route_editTunnel db id body with ⟨t, e, hedit, hrep⟩ | ⟨hno, hdb⟩
  · rw [broken_of_replaces hrep hgood]
    constructor
    · exact fun hcare => hcare t e ((hedit t e).mpr ⟨rfl, rfl⟩)
    · intro hsafe t' e' h
      obtain ⟨rfl, rfl⟩ := (hedit t' e').mp h
      exact hsafe
  · refine iff_of_true (fun t e h => absurd h (hno t e)) ?_
    rw [hdb]
    exact hgood

theorem broken_setStatus (hgood : ¬ db.Broken depths) (id : Text) (body : Option Json) :
    (∀ t status, SetsStatus db id body t status → ∀ k, db.HasNode k →
      ¬ (({ t with status := status } : Tunnel).read depths).BreaksAt depths k) ↔
      ¬ (route db (.setStatus id body)).2.Broken depths := by
  rcases route_setStatus db id body with ⟨t, status, hsets, hrep⟩ | ⟨hno, hsame⟩
  · rw [broken_of_replaces hrep hgood]
    constructor
    · exact fun hcare => hcare t status ((hsets t status).mpr ⟨rfl, rfl⟩)
    · intro hsafe t' status' h
      obtain ⟨rfl, rfl⟩ := (hsets t' status').mp h
      exact hsafe
  · refine iff_of_true (fun t status h => absurd h (hno t status)) fun hbroken => hgood (broken_of_looks ?_ ?_ hbroken)
    · exact fun k hk => (hsame.nodes k).mp hk
    · refine looks_settle fun db' hok => ?_
      rcases setStatus_eq_ok hok with ⟨t, status, hsets, -⟩ | ⟨hnone, rfl | ⟨status, rfl⟩⟩
      · exact absurd hsets (hno t status)
      · rfl
      · unfold Db.setTunnelStatus
        rw [rows_of_getTunnel_none _ hnone]

theorem safePorts_iff (hgood : ¬ db.Broken depths) (r : Request) :
    SafePorts depths db r ↔ ¬ (route db r).2.Broken depths := by
  cases r with
  | createNode id token located body => exact broken_createNode hgood id token located body
  | createTunnel id token body => exact broken_createTunnel hgood id token body
  | editTunnel id body => exact broken_editTunnel hgood id body
  | setStatus id body => exact broken_setStatus hgood id body
  | deleteNode id =>
    have hnodes : ∀ k, (route db (.deleteNode id)).2.HasNode k → db.HasNode k := fun k hk =>
      ((route_deleteNode db id k).mp hk).1
    exact iff_of_true trivial fun h => hgood (broken_of_looks hnodes rfl h)
  | deleteTunnel id =>
    refine iff_of_true trivial ?_
    rintro ⟨t, ht, h⟩
    exact hgood ⟨t, (Table.mem_delete.mp ht).1, h⟩
  | heartbeat token forwarded peer body =>
    have hsame := route_heartbeat db token forwarded peer body
    refine iff_of_true trivial fun h => hgood (broken_of_looks (fun k hk => (hsame.nodes k).mp hk) ?_ h)
    refine looks_settle fun db' hok => ?_
    obtain ⟨id, ip, rfl⟩ := heartbeat_eq_ok hok
    rfl
  | restartTunnel id =>
    have hsame := route_restartTunnel db id
    refine iff_of_true trivial fun h => hgood (broken_of_looks (fun k hk => (hsame.nodes k).mp hk) ?_ h)
    refine looks_settle fun db' hok => ?_
    rw [restartTunnel_eq_ok hok]
    unfold Db.requestTunnelRestart
    exact looks_updateTunnelRow _ fun _ => rfl
  | restartAgents =>
    have hsame := route_restartAgents db
    exact iff_of_true trivial fun h => hgood (broken_of_looks (fun k hk => (hsame.nodes k).mp hk) rfl h)
  | traffic body =>
    have hsame := route_traffic db body
    refine iff_of_true trivial fun h => hgood (broken_of_looks (fun k hk => (hsame.nodes k).mp hk) ?_ h)
    show (traffic db body).2.tunnels.rows.map _ = _
    unfold traffic
    split
    · exact looks_addReports _ db
    · rfl

/-- Out of a database in which every node is served, being careful is what keeps it so. -/
theorem carefulPorts_iff (hgood : ¬ db.Broken depths) {r : Request} (hserve : serveWithin depths db r = some db') :
    CarefulPorts depths db r ↔ ¬ db'.Broken depths := by
  unfold serveWithin at hserve
  split at hserve
  · rename_i hdumps
    cases hserve
    rw [CarefulPorts, forall_prop_of_true hdumps, safePorts_iff hgood]
  · rename_i hdumps
    cases hserve
    exact iff_of_true (fun h => absurd h hdumps) hgood

variable (depths)

theorem exists_exec_serveWithin (rs : List Request) : ∀ db, ∃ db', exec (serveWithin depths) db rs = some db' := by
  induction rs with
  | nil => exact fun db => ⟨db, rfl⟩
  | cons r rs ih =>
    intro db
    obtain ⟨db₁, h⟩ : ∃ db₁, serveWithin depths db r = some db₁ := by
      unfold serveWithin
      split
      · exact ⟨_, rfl⟩
      · exact ⟨_, rfl⟩
    obtain ⟨db', h'⟩ := ih db₁
    exact ⟨db', exec_cons_eq_some.mpr ⟨db₁, h, h'⟩⟩

/-- **When no tunnel breaks the sync**: the requests of a run are all careful exactly if at all
times every node gets its answer, with all the running tunnels that end there. -/
theorem careful_iff_always_served (rs : List Request) :
    Along (serveWithin depths) (CarefulPorts depths) Db.empty rs ↔
      ∀ pre db, pre <+: rs → exec (serveWithin depths) Db.empty pre = some db → db.Served repr depths := by
  obtain ⟨last, hlast⟩ := exists_exec_serveWithin depths rs Db.empty
  have hempty : ¬ Db.empty.Broken depths := fun ⟨t, ht, _⟩ => Table.not_mem_empty t ht
  simp only [served_iff]
  exact along_iff_never (I := fun _ => True) (fun _ _ _ _ _ => trivial) (fun _ _ _ _ hgood => carefulPorts_iff hgood)
    trivial hempty hlast

/-- What CPython 3.11 takes. -/
def usualDepths : Depths := ⟨984, 984, 980, fun _ rule => rule.shallow 984⟩

/-- Two nodes with a tunnel, and another whose ports are a number. -/
def numberPorts : List Request :=
  openTunnel ++ [.createTunnel 2 2 (some (.dict [(str "core_type", .str (str "paqet")), (str "core_port", .int 8888),
    (str "server_node_id", .str (str "node_00000001")), (str "client_node_id", .str (str "node_00000002")),
    (str "ports", .int 443)]))]

/-- The entry node of both gets no answer. -/
theorem numberPorts_breaks : ∃ db, exec (serveWithin usualDepths) Db.empty numberPorts = some db ∧
    db.tunnels.rows.map Tunnel.coreType = [text "hawal", text "paqet"] ∧ ¬ db.Served (fun _ => []) usualDepths := by
  obtain ⟨db, hrun, htunnels, hbroken⟩ : ∃ db, exec (serveWithin usualDepths) Db.empty numberPorts = some db ∧
      db.tunnels.rows.map Tunnel.coreType = [text "hawal", text "paqet"] ∧ db.Broken usualDepths :=
    exists_of_any (by decide +kernel)
  exact ⟨db, hrun, htunnels, fun hserved => (served_iff _).mp hserved hbroken⟩

end Hawal.Panel
