import Hawal.Panel.Routes

/-!
# What a request does to the database

When a request is served, and what it then leaves: a row of `nodes` added or removed, one
row of `tunnels` put in the place of the row with its id (`Replaces`), one removed, or nothing
that the engines of a tunnel could see (`Same`). `route_cases` lists these for all requests, and
the invariants of the panel are derived from it.
-/

namespace Hawal.Panel

open Hawal.Lib Hawal.Lib.Python

theorem readBody_eq_ok {body : Option Json} {data : Fields} :
    readBody body = .ok data ↔ body = some (.dict data) := by
  rw [readBody, orRaise_eq_ok, Option.bind_eq_some_iff]
  constructor
  · rintro ⟨v, rfl, hv⟩
    cases v <;> cases hv
    rfl
  · rintro rfl
    exact ⟨_, rfl, rfl⟩

/-- The database after a request is the one of its success, or as before. -/
theorem settle_cases (db : Db) (x : Except Failure Db) :
    (∃ db', x = .ok db' ∧ (settle db x).2 = db') ∨ (∀ db', x ≠ .ok db') ∧ (settle db x).2 = db := by
  cases x with
  | ok db' => exact .inl ⟨db', rfl, rfl⟩
  | error e =>
    refine .inr ⟨fun db' h => ?_, rfl⟩
    cases h

/-! ### When a request is served -/

/-- The request creates this node: its values fit, and a new row has a token of its own. -/
def AddsNode (db : Db) (id : BitVec 32) (token : BitVec 128) (located : Bool) (body : Option Json) (n : Node) :
    Prop :=
  (∃ data : Fields, body = some (.dict data) ∧ newNode id token located data = some n) ∧
    (db.nodes.find n.id = none → ∀ o ∈ db.nodes.rows, o.token ≠ n.token)

/-- The request creates this tunnel: the port check passes and the values fit. -/
def AddsTunnel (db : Db) (id : BitVec 32) (token : BitVec 64) (body : Option Json) (t : Tunnel) : Prop :=
  ∃ data form, body = some (.dict data) ∧ tunnelForm data = some form ∧
    validateTunnelPorts db form.corePort form.serverNodeId = none ∧ newTunnel id token form = some t

/-- The request makes this edit of the tunnel `t`. -/
def Edits (db : Db) (id : Text) (body : Option Json) (t : Tunnel) (e : Edit) : Prop :=
  db.getTunnel id = some t ∧ ∃ (data : Fields) (corePort : ℤ), body = some (.dict data) ∧
    (data.get "core_port" (.int 3090)).toInt = some corePort ∧ editOf data corePort t = some e

/-- The request gives the tunnel `t` this status. -/
def SetsStatus (db : Db) (id : Text) (body : Option Json) (t : Tunnel) (status : Text) : Prop :=
  db.getTunnel id = some t ∧ ∃ data : Fields, body = some (.dict data) ∧
    (data.get "status" (.str (str "stopped"))).bindText = some (some status)

variable {db db' : Db}

theorem createNode_eq_ok {id : BitVec 32} {token : BitVec 128} {located : Bool} {body : Option Json} :
    createNode db id token located body = .ok db' ↔
      ∃ n, AddsNode db id token located body n ∧ db.saveNode n = some db' := by
  simp only [createNode, bind_eq_ok, readBody_eq_ok, orRaise_eq_ok]
  constructor
  · rintro ⟨data, hb, n, hn, hs⟩
    refine ⟨n, ⟨⟨data, hb, hn⟩, ?_⟩, hs⟩
    by_contra hno
    rw [Db.saveNode, dif_neg hno] at hs
    cases hs
  · rintro ⟨n, ⟨⟨data, hb, hn⟩, -⟩, hs⟩
    exact ⟨data, hb, n, hn, hs⟩

theorem createTunnel_eq_ok {id : BitVec 32} {token : BitVec 64} {body : Option Json} :
    createTunnel db id token body = .ok db' ↔
      ∃ t, AddsTunnel db id token body t ∧ db' = db.saveTunnel t := by
  simp only [createTunnel, bind_eq_ok, readBody_eq_ok, orRaise_eq_ok]
  constructor
  · rintro ⟨data, hb, form, hf, h⟩
    cases hv : validateTunnelPorts db form.corePort form.serverNodeId with
    | some err => simp [hv] at h
    | none =>
      simp only [hv, bind_eq_ok, orRaise_eq_ok] at h
      obtain ⟨t, ht, hs⟩ := h
      exact ⟨t, ⟨data, form, hb, hf, hv, ht⟩, by cases hs; rfl⟩
  · rintro ⟨t, ⟨data, form, hb, hf, hv, ht⟩, rfl⟩
    refine ⟨data, hb, form, hf, ?_⟩
    simp only [hv, bind_eq_ok, orRaise_eq_ok]
    exact ⟨t, ht, rfl⟩

theorem editTunnel_eq_ok {id : Text} {body : Option Json} :
    editTunnel db id body = .ok db' ↔ ∃ t e, Edits db id body t e ∧ db' = db.updateTunnel id e := by
  simp only [editTunnel, bind_eq_ok, readBody_eq_ok, orRaise_eq_ok]
  constructor
  · rintro ⟨data, hb, p, hp, h⟩
    cases ht : db.getTunnel id with
    | none => simp [ht] at h
    | some t =>
      simp only [ht, bind_eq_ok, orRaise_eq_ok] at h
      obtain ⟨e, he, hs⟩ := h
      exact ⟨t, e, ⟨ht, data, p, hb, hp, he⟩, by cases hs; rfl⟩
  · rintro ⟨t, e, ⟨ht, data, p, hb, hp, he⟩, rfl⟩
    refine ⟨data, hb, p, hp, ?_⟩
    simp only [ht, bind_eq_ok, orRaise_eq_ok]
    exact ⟨e, he, rfl⟩

theorem setStatus_eq_ok {id : Text} {body : Option Json} (h : setStatus db id body = .ok db') :
    (∃ t status, SetsStatus db id body t status ∧ db' = db.setTunnelStatus id status) ∨
      db.getTunnel id = none ∧ (db' = db ∨ ∃ status, db' = db.setTunnelStatus id status) := by
  simp only [setStatus, bind_eq_ok, readBody_eq_ok, orRaise_eq_ok] at h
  obtain ⟨data, hb, v, hv, h⟩ := h
  cases v with
  | some status =>
    have hs : db' = db.setTunnelStatus id status := by cases h; rfl
    cases ht : db.getTunnel id with
    | some t => exact .inl ⟨t, status, ⟨ht, data, hb, hv⟩, hs⟩
    | none => exact .inr ⟨rfl, .inr ⟨status, hs⟩⟩
  | none =>
    cases ht : db.getTunnel id with
    | some t => simp [ht] at h
    | none =>
      simp only [ht, Option.isSome_none, Bool.false_eq_true, if_false, Except.ok.injEq] at h
      exact .inr ⟨rfl, .inl h.symm⟩

theorem setStatus_of_sets {id status : Text} {body : Option Json} {t : Tunnel}
    (h : SetsStatus db id body t status) : setStatus db id body = .ok (db.setTunnelStatus id status) := by
  obtain ⟨-, data, hb, hv⟩ := h
  simp only [setStatus, bind_eq_ok, readBody_eq_ok, orRaise_eq_ok]
  exact ⟨data, hb, some status, hv, rfl⟩

/-- A request creates at most one node, and so on. -/
theorem AddsNode.unique {id : BitVec 32} {token : BitVec 128} {located : Bool} {body : Option Json} {n n' : Node}
    (h : AddsNode db id token located body n) (h' : AddsNode db id token located body n') : n' = n := by
  obtain ⟨⟨data, rfl, hn⟩, -⟩ := h
  obtain ⟨⟨data', hb, hn'⟩, -⟩ := h'
  cases hb
  rw [hn] at hn'
  exact (Option.some.inj hn').symm

theorem AddsTunnel.unique {id : BitVec 32} {token : BitVec 64} {body : Option Json} {t t' : Tunnel}
    (h : AddsTunnel db id token body t) (h' : AddsTunnel db id token body t') : t' = t := by
  obtain ⟨data, form, rfl, hf, -, ht⟩ := h
  obtain ⟨data', form', hb, hf', -, ht'⟩ := h'
  cases hb
  rw [hf] at hf'
  cases hf'
  rw [ht] at ht'
  exact (Option.some.inj ht').symm

theorem Edits.unique {id : Text} {body : Option Json} {t t' : Tunnel} {e e' : Edit}
    (h : Edits db id body t e) (h' : Edits db id body t' e') : t' = t ∧ e' = e := by
  obtain ⟨ht, data, p, rfl, hp, he⟩ := h
  obtain ⟨ht', data', p', hb, hp', he'⟩ := h'
  cases hb
  rw [ht] at ht'
  cases ht'
  rw [hp] at hp'
  cases hp'
  rw [he] at he'
  exact ⟨rfl, (Option.some.inj he').symm⟩

theorem SetsStatus.unique {id status status' : Text} {body : Option Json} {t t' : Tunnel}
    (h : SetsStatus db id body t status) (h' : SetsStatus db id body t' status') : t' = t ∧ status' = status := by
  obtain ⟨ht, data, rfl, hs⟩ := h
  obtain ⟨ht', data', hb, hs'⟩ := h'
  cases hb
  rw [ht] at ht'
  cases ht'
  rw [hs] at hs'
  cases hs'
  exact ⟨rfl, rfl⟩

/-! ### What a request leaves -/

/-- What decides who runs a tunnel, and where. -/
structure Face where
  id : Text
  coreType : Text
  serverNodeId : Text
  clientNodeId : Text
  corePort : ℤ
  status : Text
  deriving DecidableEq

/-- The face of a row. -/
def Tunnel.face (t : Tunnel) : Face :=
  { id := t.id, coreType := t.coreType, serverNodeId := t.serverNodeId
    clientNodeId := t.clientNodeId, corePort := t.corePort, status := t.status }

/-- There is a node with this id. -/
def Db.HasNode (db : Db) (id : Text) : Prop := id ∈ db.nodes.rows.map Node.id

instance (db : Db) (id : Text) : Decidable (db.HasNode id) := inferInstanceAs (Decidable (_ ∈ _))

theorem Db.hasNode_iff {id : Text} : db.HasNode id ↔ ∃ n ∈ db.nodes, n.id = id := List.mem_map

/-- Same nodes, and tunnels with the same faces. -/
structure Same (db db' : Db) : Prop where
  nodes : ∀ id, db'.HasNode id ↔ db.HasNode id
  tunnels : db'.tunnels.rows.map Tunnel.face = db.tunnels.rows.map Tunnel.face

/-- Same nodes, and `new` in the place of the row with its id. -/
structure Replaces (db db' : Db) (new : Tunnel) : Prop where
  nodes : ∀ id, db'.HasNode id ↔ db.HasNode id
  tunnels : ∀ t, t ∈ db'.tunnels ↔ t = new ∨ t ∈ db.tunnels ∧ t.id ≠ new.id

theorem Same.refl (db : Db) : Same db db := ⟨fun _ => Iff.rfl, rfl⟩

theorem Same.trans {db₁ db₂ db₃ : Db} (h : Same db₁ db₂) (h' : Same db₂ db₃) : Same db₁ db₃ :=
  ⟨fun id => (h'.nodes id).trans (h.nodes id), h'.tunnels.trans h.tunnels⟩

/-- The row of before with the face of a row. -/
theorem Same.row (h : Same db db') {t : Tunnel} (ht : t ∈ db'.tunnels) :
    ∃ o ∈ db.tunnels, o.face = t.face := by
  have hf : t.face ∈ db.tunnels.rows.map Tunnel.face := h.tunnels ▸ List.mem_map_of_mem ht
  exact List.mem_map.mp hf

theorem Same.symm (h : Same db db') : Same db' db := ⟨fun id => (h.nodes id).symm, h.tunnels.symm⟩

/-- Rows of `tunnels` changed where no face shows it. -/
theorem same_updateTunnelRow {id : Text} {f : Tunnel → Tunnel} (hf : ∀ t, (f t).id = t.id)
    (hface : ∀ t, (f t).face = t.face) : Same db (db.updateTunnelRow id f hf) :=
  ⟨fun _ => Iff.rfl, Table.map_ite hface id db.tunnels.rows⟩

/-- A changed row takes the place of the old one. -/
theorem replaces_updateTunnelRow {id : Text} {f : Tunnel → Tunnel} (hf : ∀ t, (f t).id = t.id) {t : Tunnel}
    (ht : db.getTunnel id = some t) : Replaces db (db.updateTunnelRow id f hf) (f t) := by
  obtain ⟨hmem, rfl⟩ := Table.find_eq_some.mp ht
  refine ⟨fun _ => Iff.rfl, fun t' => ?_⟩
  show t' ∈ db.tunnels.update t.id f hf ↔ t' = f t ∨ t' ∈ db.tunnels ∧ t'.id ≠ (f t).id
  rw [Table.mem_update, hf]
  refine or_congr ?_ Iff.rfl
  constructor
  · rintro ⟨o, ho, hid, rfl⟩
    rw [Table.eq_of_key ho hmem hid]
  · rintro rfl
    exact ⟨t, hmem, rfl, rfl⟩

/-- An update of a row that is not there. -/
theorem same_of_getTunnel_none {id : Text} {f : Tunnel → Tunnel} (hf : ∀ t, (f t).id = t.id)
    (ht : db.getTunnel id = none) : Same db (db.updateTunnelRow id f hf) := by
  have hne := Table.find_eq_none.mp ht
  refine ⟨fun _ => Iff.rfl, ?_⟩
  show (db.tunnels.rows.map _).map Tunnel.face = _
  rw [List.map_map]
  refine List.map_congr_left fun r hr => ?_
  rw [Function.comp_apply, if_neg (hne r hr)]

/-- A saved row takes the place of the old one, of which it keeps the counters. -/
theorem exists_saveTunnel (db : Db) (t : Tunnel) :
    ∃ new, new.face = t.face ∧ new.ports = t.ports ∧ Replaces db (db.saveTunnel t) new := by
  cases hf : db.tunnels.find t.id with
  | none =>
    refine ⟨t, rfl, rfl, fun _ => Iff.rfl, fun t' => Table.mem_upsert.trans (or_congr ?_ Iff.rfl)⟩
    simp [hf]
  | some o =>
    obtain ⟨ho, hid⟩ := Table.find_eq_some.mp hf
    refine ⟨Db.mergeTunnel t o, by rw [Tunnel.face, Db.mergeTunnel, hid]; rfl, rfl, fun _ => Iff.rfl, fun t' => ?_⟩
    refine Table.mem_upsert.trans (or_congr ?_ (by rw [Db.mergeTunnel, hid]))
    simp [hf]

/-- The counters do not show. -/
theorem replaces_saveTunnel (db : Db) (t : Tunnel) :
    ∃ new, new.face = t.face ∧ Replaces db (db.saveTunnel t) new := by
  obtain ⟨new, hface, -, hrep⟩ := exists_saveTunnel db t
  exact ⟨new, hface, hrep⟩

/-! ### The requests -/

theorem route_createNode (db : Db) (id : BitVec 32) (token : BitVec 128) (located : Bool) (body : Option Json) :
    (∃ n, (∀ n', AddsNode db id token located body n' ↔ n' = n) ∧
      (route db (.createNode id token located body)).2.tunnels = db.tunnels ∧
      ∀ k, (route db (.createNode id token located body)).2.HasNode k ↔ db.HasNode k ∨ k = n.id) ∨
    (∀ n, ¬ AddsNode db id token located body n) ∧
      (route db (.createNode id token located body)).2 = db := by
  rcases settle_cases db (createNode db id token located body) with ⟨db', hok, hr⟩ | ⟨hno, hr⟩
  · obtain ⟨n, hadd, hs⟩ := createNode_eq_ok.mp hok
    refine .inl ⟨n, fun n' => ⟨hadd.unique, fun h => h ▸ hadd⟩, ?_⟩
    rw [Db.saveNode, dif_pos hadd.2, Option.some.injEq] at hs
    have hdb : (route db (.createNode id token located body)).2 = db' := hr
    rw [hdb, ← hs]
    refine ⟨rfl, fun k => ?_⟩
    rw [Db.hasNode_iff, Db.hasNode_iff]
    constructor
    · rintro ⟨m, hm, rfl⟩
      rcases Table.mem_upsert.mp hm with (⟨-, rfl⟩ | ⟨o, ho, rfl⟩) | ⟨hm, -⟩
      · exact .inr rfl
      · exact .inl ⟨o, (Table.find_eq_some.mp ho).1, rfl⟩
      · exact .inl ⟨m, hm, rfl⟩
    · -- the row of the new id is the new one or a merged one
      have hnew : ∃ m ∈ db.nodes.upsert n (Db.mergeNode n) fun _ => rfl, m.id = n.id := by
        cases hf : db.nodes.find n.id with
        | none => exact ⟨n, Table.mem_upsert.mpr (.inl (.inl ⟨hf, rfl⟩)), rfl⟩
        | some o =>
          exact ⟨Db.mergeNode n o, Table.mem_upsert.mpr (.inl (.inr ⟨o, hf, rfl⟩)), (Table.find_eq_some.mp hf).2⟩
      rintro (⟨m, hm, rfl⟩ | rfl)
      · by_cases hid : m.id = n.id
        · rw [hid]
          exact hnew
        · exact ⟨m, Table.mem_upsert.mpr (.inr ⟨hm, hid⟩), rfl⟩
      · exact hnew
  · refine .inr ⟨fun n hadd => hno _ (createNode_eq_ok.mpr ⟨n, hadd, dif_pos hadd.2⟩), hr⟩

theorem route_createTunnel (db : Db) (id : BitVec 32) (token : BitVec 64) (body : Option Json) :
    (∃ t new, (∀ t', AddsTunnel db id token body t' ↔ t' = t) ∧ new.face = t.face ∧
      Replaces db (route db (.createTunnel id token body)).2 new) ∨
    (∀ t, ¬ AddsTunnel db id token body t) ∧ (route db (.createTunnel id token body)).2 = db := by
  rcases settle_cases db (createTunnel db id token body) with ⟨db', hok, hr⟩ | ⟨hno, hr⟩
  · obtain ⟨t, hadd, rfl⟩ := createTunnel_eq_ok.mp hok
    obtain ⟨new, hface, hrep⟩ := replaces_saveTunnel db t
    exact .inl ⟨t, new, fun t' => ⟨hadd.unique, fun h => h ▸ hadd⟩, hface, hr ▸ hrep⟩
  · exact .inr ⟨fun t hadd => hno _ (createTunnel_eq_ok.mpr ⟨t, hadd, rfl⟩), hr⟩

theorem route_editTunnel (db : Db) (id : Text) (body : Option Json) :
    (∃ t e, (∀ t' e', Edits db id body t' e' ↔ t' = t ∧ e' = e) ∧
      Replaces db (route db (.editTunnel id body)).2 (e.apply t)) ∨
    (∀ t e, ¬ Edits db id body t e) ∧ (route db (.editTunnel id body)).2 = db := by
  rcases settle_cases db (editTunnel db id body) with ⟨db', hok, hr⟩ | ⟨hno, hr⟩
  · obtain ⟨t, e, hedit, rfl⟩ := editTunnel_eq_ok.mp hok
    refine .inl ⟨t, e, fun t' e' => ⟨hedit.unique, fun h => ?_⟩, hr ▸ replaces_updateTunnelRow _ hedit.1⟩
    obtain ⟨rfl, rfl⟩ := h
    exact hedit
  · exact .inr ⟨fun t e hedit => hno _ (editTunnel_eq_ok.mpr ⟨t, e, hedit, rfl⟩), hr⟩

theorem route_setStatus (db : Db) (id : Text) (body : Option Json) :
    (∃ t status, (∀ t' status', SetsStatus db id body t' status' ↔ t' = t ∧ status' = status) ∧
      Replaces db (route db (.setStatus id body)).2 { t with status := status }) ∨
    (∀ t status, ¬ SetsStatus db id body t status) ∧ Same db (route db (.setStatus id body)).2 := by
  rcases settle_cases db (setStatus db id body) with ⟨db', hok, hr⟩ | ⟨hno, hr⟩
  · rcases setStatus_eq_ok hok with ⟨t, status, hsets, rfl⟩ | ⟨hnone, hdb⟩
    · refine .inl ⟨t, status, fun t' status' => ⟨hsets.unique, fun h => ?_⟩,
        hr ▸ replaces_updateTunnelRow _ hsets.1⟩
      obtain ⟨rfl, rfl⟩ := h
      exact hsets
    · refine .inr ⟨fun t status hsets => ?_, ?_⟩
      · rw [hsets.1] at hnone
        cases hnone
      · have hdb' : (route db (.setStatus id body)).2 = db' := hr
        rw [hdb']
        rcases hdb with rfl | ⟨status, rfl⟩
        · exact Same.refl _
        · exact same_of_getTunnel_none _ hnone
  · refine .inr ⟨fun t status hsets => hno _ (setStatus_of_sets hsets), ?_⟩
    have hdb : (route db (.setStatus id body)).2 = db := hr
    rw [hdb]
    exact Same.refl db

theorem route_deleteNode (db : Db) (id k : Text) :
    (route db (.deleteNode id)).2.HasNode k ↔ db.HasNode k ∧ k ≠ id := by
  rw [Db.hasNode_iff, Db.hasNode_iff]
  constructor
  · rintro ⟨n, hn, rfl⟩
    obtain ⟨hn, hne⟩ := Table.mem_delete.mp hn
    exact ⟨⟨n, hn, rfl⟩, hne⟩
  · rintro ⟨⟨n, hn, rfl⟩, hne⟩
    exact ⟨n, Table.mem_delete.mpr ⟨hn, hne⟩, rfl⟩

theorem same_updateTunnelTraffic (db : Db) (id : Text) (bytesIn bytesOut : ℤ) :
    Same db (db.updateTunnelTraffic id bytesIn bytesOut) := by
  unfold Db.updateTunnelTraffic
  exact same_updateTunnelRow _ fun _ => rfl

theorem same_addReports (reps : List Json) : ∀ db : Db, Same db (addReports db reps).2 := by
  induction reps with
  | nil => exact Same.refl
  | cons rep reps ih =>
    intro db
    rw [addReports]
    split
    · exact Same.refl db
    · exact ih db
    · rename_i id bytesIn bytesOut _
      exact (same_updateTunnelTraffic db id bytesIn bytesOut).trans (ih _)

/-- Reports leave the nodes alone. -/
theorem nodes_addReports (reps : List Json) : ∀ db : Db, (addReports db reps).2.nodes = db.nodes := by
  induction reps with
  | nil => exact fun _ => rfl
  | cons rep reps ih =>
    intro db
    rw [addReports]
    split
    · rfl
    · exact ih db
    · exact ih _

theorem nodes_traffic (db : Db) (body : Option Json) : (traffic db body).2.nodes = db.nodes := by
  unfold traffic
  cases readReports body with
  | ok reps => exact nodes_addReports reps db
  | error e => rfl

theorem map_ip (ip id : Text) (rows : List Node) :
    (rows.map fun n => if n.id = id then { n with ip := ip } else n).map Node.id = rows.map Node.id := by
  refine Table.map_ite ?_ id rows
  exact fun _ => rfl

/-- Rows of `nodes` changed, with their ids. -/
theorem same_updateNodeHeartbeat (db : Db) (id ip : Text) : Same db (db.updateNodeHeartbeat id ip) := by
  refine ⟨fun k => ?_, rfl⟩
  have hids : (db.updateNodeHeartbeat id ip).nodes.rows.map Node.id = db.nodes.rows.map Node.id :=
    map_ip ip id db.nodes.rows
  rw [Db.HasNode, hids]
  rfl

theorem same_requestAllAgentsRestart (db : Db) : Same db db.requestAllAgentsRestart := by
  refine ⟨fun k => ?_, rfl⟩
  have hids : db.requestAllAgentsRestart.nodes.rows.map Node.id = db.nodes.rows.map Node.id := List.map_map
  rw [Db.HasNode, hids]
  rfl

theorem heartbeat_eq_ok {token : Option Text} {forwarded peer : Text} {body : Option Json}
    (h : heartbeat db token forwarded peer body = .ok db') : ∃ id ip, db' = db.updateNodeHeartbeat id ip := by
  unfold heartbeat at h
  cases ht : token.bind db.getNodeByToken with
  | none => simp [ht] at h
  | some node =>
    simp only [ht, bind_eq_ok] at h
    obtain ⟨data, -, ip, -, h⟩ := h
    split at h
    · exact ⟨node.id, ip, by cases h; rfl⟩
    · cases h

theorem restartTunnel_eq_ok {id : Text} (h : restartTunnel db id = .ok db') : db' = db.requestTunnelRestart id := by
  unfold restartTunnel at h
  split at h
  · cases h
  · cases h
    rfl

theorem same_settle {x : Except Failure Db} (h : ∀ db', x = .ok db' → Same db db') : Same db (settle db x).2 := by
  rcases settle_cases db x with ⟨db', hok, hr⟩ | ⟨-, hr⟩
  · rw [hr]
    exact h db' hok
  · rw [hr]
    exact Same.refl db

/-- The other requests change nothing that a face shows. -/
theorem route_heartbeat (db : Db) (token : Option Text) (forwarded peer : Text) (body : Option Json) :
    Same db (route db (.heartbeat token forwarded peer body)).2 := by
  refine same_settle fun db' hok => ?_
  obtain ⟨id, ip, rfl⟩ := heartbeat_eq_ok hok
  exact same_updateNodeHeartbeat db id ip

theorem route_restartTunnel (db : Db) (id : Text) : Same db (route db (.restartTunnel id)).2 := by
  refine same_settle fun db' hok => ?_
  rw [restartTunnel_eq_ok hok]
  unfold Db.requestTunnelRestart
  exact same_updateTunnelRow _ fun _ => rfl

theorem route_restartAgents (db : Db) : Same db (route db .restartAgents).2 :=
  same_requestAllAgentsRestart db

theorem route_traffic (db : Db) (body : Option Json) : Same db (route db (.traffic body)).2 := by
  show Same db (traffic db body).2
  unfold traffic
  split
  · exact same_addReports _ db
  · exact Same.refl db

/-- Any requests can be made one after another. -/
theorem exists_exec_serve (rs : List Request) : ∀ db : Db, ∃ db', exec serve db rs = some db' := by
  induction rs with
  | nil => exact fun db => ⟨db, rfl⟩
  | cons r rs ih => exact fun db => ih (route db r).2

/-- The body of a request for a tunnel with this core between two nodes, on port 3090. -/
def tunnelBody (coreType server client : String) : Option Json :=
  some (.dict [(str "core_type", .str (str coreType)), (str "server_node_id", .str (str server)),
    (str "client_node_id", .str (str client))])

/-- Requests for two nodes and a tunnel between them. -/
def openTunnel : List Request :=
  [.createNode 1 1 true (some (.dict [])), .createNode 2 2 true (some (.dict [])),
    .createTunnel 1 1 (tunnelBody "hawal" "node_00000001" "node_00000002")]

end Hawal.Panel
