import Hawal.Panel.Effects
import Hawal.Panel.Sync

/-!
# One core port, one listener

Two running tunnels that listen at one node on one core port cannot both work.
`validate_tunnel_ports` is there to prevent this ("core_port is not duplicated across active
tunnels on the same server node"), but only `POST /api/tunnels` calls it, and it compares
`server_node_id`, which is not where paqet and gost listen.

`careful_iff_never_shared` says in which runs the panel does keep the ports apart: those in which
no request leaves a running tunnel that listens where another one does. What the check
contributes is `AddsTunnel.apart`: of two tunnels that are not reversed the later one is refused.
`twoExits_shared` is a run in which two Paqet tunnels come to listen on one port.
-/

namespace Hawal.Panel

open Hawal.Lib Hawal.Lib.Python

/-- Two running tunnels listen at one node on one port. -/
def Clash (t t' : Tunnel) : Prop :=
  t.id ≠ t'.id ∧ t.Running ∧ t'.Running ∧ t.listener = t'.listener ∧ t.corePort = t'.corePort

instance (t t' : Tunnel) : Decidable (Clash t t') :=
  inferInstanceAs (Decidable (_ ∧ _ ∧ _ ∧ _ ∧ _))

/-- Some node is to listen for two tunnels on one port. -/
def Db.Shared (db : Db) : Prop :=
  ∃ t ∈ db.tunnels.rows, ∃ t' ∈ db.tunnels.rows, Clash t t' ∧ db.HasNode t.listener

instance (db : Db) : Decidable db.Shared :=
  inferInstanceAs (Decidable (∃ t ∈ db.tunnels.rows, ∃ t' ∈ db.tunnels.rows, _ ∧ _))

/-- The request makes no two tunnels listen at one node on one port: neither by a tunnel that it
leaves running nor by creating the node. -/
def CarefulPort (db : Db) : Request → Prop
  | .createNode id token located body => ∀ n, AddsNode db id token located body n →
    ∀ t ∈ db.tunnels, ∀ t' ∈ db.tunnels, Clash t t' → t.listener ≠ n.id
  | .createTunnel id token body => ∀ t, AddsTunnel db id token body t →
    ∀ o ∈ db.tunnels, Clash t o → ¬ db.HasNode t.listener
  | .editTunnel id body => ∀ t e, Edits db id body t e →
    ∀ o ∈ db.tunnels, Clash (e.apply t) o → ¬ db.HasNode (e.apply t).listener
  | .setStatus id body => ∀ t status, SetsStatus db id body t status →
    ∀ o ∈ db.tunnels, Clash { t with status := status } o → ¬ db.HasNode t.listener
  | _ => True

/-! ### Faces -/

theorem listener_congr {t o : Tunnel} (h : t.face = o.face) : t.listener = o.listener := by
  simp only [Tunnel.face, Face.mk.injEq] at h
  obtain ⟨-, hcore, hserver, hclient, -, -⟩ := h
  have hrev : t.Reversed ↔ o.Reversed := by rw [Tunnel.Reversed, Tunnel.Reversed, hcore]
  unfold Tunnel.listener
  by_cases hr : o.Reversed
  · rw [if_pos (hrev.mpr hr), if_pos hr, hclient]
  · rw [if_neg (mt hrev.mp hr), if_neg hr, hserver]

theorem Clash.congr {t t' o o' : Tunnel} (h : t.face = o.face) (h' : t'.face = o'.face) (hc : Clash t t') :
    Clash o o' := by
  obtain ⟨hid, hrun, hrun', hl, hp⟩ := hc
  have hlo := listener_congr h
  have hlo' := listener_congr h'
  simp only [Tunnel.face, Face.mk.injEq] at h h'
  obtain ⟨hid₁, -, -, -, hp₁, hs₁⟩ := h
  obtain ⟨hid₂, -, -, -, hp₂, hs₂⟩ := h'
  refine ⟨hid₁ ▸ hid₂ ▸ hid, hs₁.symm.trans hrun, hs₂.symm.trans hrun', ?_, ?_⟩
  · rw [← hlo, ← hlo', hl]
  · rw [← hp₁, ← hp₂, hp]

theorem Clash.symm {t t' : Tunnel} (h : Clash t t') : Clash t' t := by
  obtain ⟨hid, hrun, hrun', hl, hp⟩ := h
  exact ⟨hid.symm, hrun', hrun, hl.symm, hp.symm⟩

variable {db db' : Db}

theorem Db.Shared.of_same (h : Same db db') (hs : db.Shared) : db'.Shared := by
  obtain ⟨t, ht, t', ht', hc, hn⟩ := hs
  obtain ⟨o, ho, hf⟩ := h.symm.row ht
  obtain ⟨o', ho', hf'⟩ := h.symm.row ht'
  refine ⟨o, ho, o', ho', hc.congr hf.symm hf'.symm, ?_⟩
  rw [h.nodes, listener_congr hf]
  exact hn

/-- A row that takes the place of another brings a node into sharing exactly if it clashes itself. -/
theorem shared_of_replaces {new : Tunnel} (h : Replaces db db' new) (hgood : ¬ db.Shared) :
    db'.Shared ↔ ∃ o ∈ db.tunnels, Clash new o ∧ db.HasNode new.listener := by
  constructor
  · rintro ⟨t, ht, t', ht', hc, hn⟩
    rw [h.nodes] at hn
    rcases (h.tunnels t).mp ht with rfl | ⟨ht, -⟩
    · rcases (h.tunnels t').mp ht' with rfl | ⟨ht', -⟩
      · exact absurd rfl hc.1
      · exact ⟨t', ht', hc, hn⟩
    · rcases (h.tunnels t').mp ht' with rfl | ⟨ht', -⟩
      · refine ⟨t, ht, hc.symm, ?_⟩
        rw [hc.symm.2.2.2.1]
        exact hn
      · exact absurd ⟨t, ht, t', ht', hc, hn⟩ hgood
  · rintro ⟨o, ho, hc, hn⟩
    refine ⟨new, (h.tunnels new).mpr (.inl rfl), o, (h.tunnels o).mpr (.inr ⟨ho, hc.1.symm⟩), hc, ?_⟩
    rw [h.nodes]
    exact hn

/-! ### Requests -/

theorem newTunnel_eq_some {id : BitVec 32} {token : BitVec 64} {form : TunnelForm} {t : Tunnel}
    (h : newTunnel id token form = some t) :
    form.serverNodeId.bindTextNotNull = some t.serverNodeId ∧ form.clientNodeId.bindTextNotNull = some t.clientNodeId ∧
      t.corePort = form.corePort := by
  simp only [newTunnel, Option.bind_eq_bind, Option.bind_eq_some_iff] at h
  obtain ⟨name, -, coreType, -, server, hserver, client, hclient, transport, -, h⟩ := h
  split at h
  · cases h
    exact ⟨hserver, hclient, rfl⟩
  · cases h

theorem tunnelForm_eq_some {data : Fields} {form : TunnelForm} (h : tunnelForm data = some form) :
    form.serverNodeId = data.get "server_node_id" .null ∧ form.clientNodeId = data.get "client_node_id" .null := by
  simp only [tunnelForm, Option.bind_eq_bind, Option.bind_eq_some_iff] at h
  obtain ⟨corePort, -, h⟩ := h
  cases h
  exact ⟨rfl, rfl⟩

/-- What the check is good for: of tunnels that are not reversed, one that names its server node
as a string clashes with none that is there. -/
theorem AddsTunnel.apart {id : BitVec 32} {token : BitVec 64} {data : Fields} {t o : Tunnel} {node : Text}
    (h : AddsTunnel db id token (some (.dict data)) t) (hnode : data.get "server_node_id" .null = .str node.val)
    (ho : o ∈ db.tunnels) (ht : ¬ t.Reversed) (ho' : ¬ o.Reversed) : ¬ Clash t o := by
  rintro ⟨-, -, -, hl, hp⟩
  rw [Tunnel.listener, if_neg ht, Tunnel.listener, if_neg ho'] at hl
  obtain ⟨data', form, hb, hform, hvalid, hnew⟩ := h
  cases hb
  obtain ⟨hserver, -, hport⟩ := newTunnel_eq_some hnew
  rw [(tunnelForm_eq_some hform).1, hnode] at hserver
  have hserver : some node = some t.serverNodeId := by
    rw [← hserver, Json.bindTextNotNull, Json.bindText, dif_pos node.property]
    rfl
  have hfound := List.find?_eq_none.mp (Option.map_eq_none_iff.mp hvalid) o ho
  refine hfound ?_
  rw [(tunnelForm_eq_some hform).1, hnode, Option.some.inj hserver, hl, ← hport, hp]
  simp [Json.isStr]

/-- Creating a node shares a port exactly if two tunnels already wait for it there. -/
theorem shared_createNode (hgood : ¬ db.Shared) (id : BitVec 32) (token : BitVec 128) (located : Bool)
    (body : Option Json) :
    CarefulPort db (.createNode id token located body) ↔
      ¬ (route db (.createNode id token located body)).2.Shared := by
  rcases route_createNode db id token located body with ⟨n, hadd, htunnels, hnodes⟩ | ⟨hno, hdb⟩
  · constructor
    · rintro hcare ⟨t, ht, t', ht', hc, hn⟩
      rw [htunnels] at ht ht'
      rcases (hnodes _).mp hn with hn | hn
      · exact hgood ⟨t, ht, t', ht', hc, hn⟩
      · exact hcare n ((hadd n).mpr rfl) t ht t' ht' hc hn
    · intro hshared n' hn' t ht t' ht' hc hid
      rw [(hadd n').mp hn'] at hid
      refine hshared ⟨t, ?_, t', ?_, hc, (hnodes _).mpr (.inr hid)⟩
      · rw [htunnels]
        exact ht
      · rw [htunnels]
        exact ht'
  · refine iff_of_true (fun n hn => absurd hn (hno n)) ?_
    rw [hdb]
    exact hgood

theorem shared_createTunnel (hgood : ¬ db.Shared) (id : BitVec 32) (token : BitVec 64) (body : Option Json) :
    CarefulPort db (.createTunnel id token body) ↔ ¬ (route db (.createTunnel id token body)).2.Shared := by
  rcases route_createTunnel db id token body with ⟨t, new, hadd, hface, hrep⟩ | ⟨hno, hdb⟩
  · rw [shared_of_replaces hrep hgood, listener_congr hface]
    constructor
    · rintro hcare ⟨o, ho, hc, hn⟩
      exact hcare t ((hadd t).mpr rfl) o ho (hc.congr hface rfl) hn
    · intro hshared t' ht' o ho hc hn
      rw [(hadd t').mp ht'] at hc hn
      exact hshared ⟨o, ho, hc.congr hface.symm rfl, hn⟩
  · refine iff_of_true (fun t ht => absurd ht (hno t)) ?_
    rw [hdb]
    exact hgood

theorem shared_editTunnel (hgood : ¬ db.Shared) (id : Text) (body : Option Json) :
    CarefulPort db (.editTunnel id body) ↔ ¬ (route db (.editTunnel id body)).2.Shared := by
  rcases route_editTunnel db id body with ⟨t, e, hedit, hrep⟩ | ⟨hno, hdb⟩
  · rw [shared_of_replaces hrep hgood]
    constructor
    · rintro hcare ⟨o, ho, hc, hn⟩
      exact hcare t e ((hedit t e).mpr ⟨rfl, rfl⟩) o ho hc hn
    · intro hshared t' e' h o ho hc hn
      obtain ⟨rfl, rfl⟩ := (hedit t' e').mp h
      exact hshared ⟨o, ho, hc, hn⟩
  · refine iff_of_true (fun t e h => absurd h (hno t e)) ?_
    rw [hdb]
    exact hgood

theorem shared_setStatus (hgood : ¬ db.Shared) (id : Text) (body : Option Json) :
    CarefulPort db (.setStatus id body) ↔ ¬ (route db (.setStatus id body)).2.Shared := by
  rcases route_setStatus db id body with ⟨t, status, hsets, hrep⟩ | ⟨hno, hsame⟩
  · rw [shared_of_replaces hrep hgood]
    constructor
    · rintro hcare ⟨o, ho, hc, hn⟩
      exact hcare t status ((hsets t status).mpr ⟨rfl, rfl⟩) o ho hc hn
    · intro hshared t' status' h o ho hc hn
      obtain ⟨rfl, rfl⟩ := (hsets t' status').mp h
      exact hshared ⟨o, ho, hc, hn⟩
  · exact iff_of_true (fun t status h => absurd h (hno t status)) fun hs => hgood (hs.of_same hsame.symm)

/-- A request that takes rows away shares nothing. -/
theorem Db.Shared.of_subset (htunnels : ∀ t ∈ db'.tunnels, t ∈ db.tunnels)
    (hnodes : ∀ id, db'.HasNode id → db.HasNode id) (h : db'.Shared) : db.Shared := by
  obtain ⟨t, ht, t', ht', hc, hn⟩ := h
  exact ⟨t, htunnels t ht, t', htunnels t' ht', hc, hnodes _ hn⟩

/-- Out of a database without sharing, being careful is what keeps it so. -/
theorem carefulPort_iff (hgood : ¬ db.Shared) (r : Request) : CarefulPort db r ↔ ¬ (route db r).2.Shared := by
  cases r with
  | createNode id token located body => exact shared_createNode hgood id token located body
  | createTunnel id token body => exact shared_createTunnel hgood id token body
  | editTunnel id body => exact shared_editTunnel hgood id body
  | setStatus id body => exact shared_setStatus hgood id body
  | deleteNode id =>
    refine iff_of_true trivial fun hs => hgood (Db.Shared.of_subset ?_ ?_ hs)
    · exact fun t ht => ht
    · exact fun k hk => ((route_deleteNode db id k).mp hk).1
  | deleteTunnel id =>
    refine iff_of_true trivial fun hs => hgood (Db.Shared.of_subset ?_ ?_ hs)
    · exact fun t ht => (Table.mem_delete.mp ht).1
    · exact fun k hk => hk
  | heartbeat token forwarded peer body =>
    exact iff_of_true trivial fun hs => hgood (hs.of_same (route_heartbeat db token forwarded peer body).symm)
  | restartTunnel id => exact iff_of_true trivial fun hs => hgood (hs.of_same (route_restartTunnel db id).symm)
  | restartAgents => exact iff_of_true trivial fun hs => hgood (hs.of_same (route_restartAgents db).symm)
  | traffic body => exact iff_of_true trivial fun hs => hgood (hs.of_same (route_traffic db body).symm)

/-- **When core ports stay apart**: the requests of a run are all careful exactly if at no time
some node is to listen for two running tunnels on one port. -/
theorem careful_iff_never_shared (rs : List Request) :
    Along serve CarefulPort Db.empty rs ↔
      ∀ pre db, pre <+: rs → exec serve Db.empty pre = some db → ¬ db.Shared := by
  obtain ⟨last, hlast⟩ := exists_exec_serve rs Db.empty
  have hempty : ¬ Db.empty.Shared := by decide
  refine along_iff_never (I := fun _ => True) (fun _ _ _ _ _ => trivial) ?_ trivial hempty hlast
  intro db r db' _ hgood hserve
  cases hserve
  exact carefulPort_iff hgood r

/-- Two Paqet tunnels from two entry nodes to one exit. -/
def twoExits : List Request :=
  [.createNode 1 1 true (some (.dict [])), .createNode 2 2 true (some (.dict [])),
    .createNode 3 3 true (some (.dict [])),
    .createTunnel 1 1 (tunnelBody "paqet" "node_00000001" "node_00000003"),
    .createTunnel 2 2 (tunnelBody "paqet" "node_00000002" "node_00000003")]

/-- The check lets both through, and the exit is to listen for both on port 3090. -/
theorem twoExits_shared : ∃ db, exec serve Db.empty twoExits = some db ∧ db.Shared :=
  exists_of_any (by decide +kernel)

end Hawal.Panel
