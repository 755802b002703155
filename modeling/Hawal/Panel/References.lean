import Hawal.Panel.CorePorts

/-!
# The ends of a tunnel

The schema declares both ends of a tunnel as references into `nodes`, with `ON DELETE CASCADE`.
No connection turns foreign keys on, so nothing enforces this: a tunnel can be created between
nodes that do not exist, and deleting a node leaves its tunnels behind, whose surviving end is
then told to dial `127.0.0.1`.

`careful_iff_always_intact` says in which runs all references are good nevertheless: those in
which a tunnel is only created between nodes that exist and a node is only deleted when no tunnel
refers to it.
-/

namespace Hawal.Panel

open Hawal.Lib Hawal.Lib.Python

/-- Both ends of the tunnel are nodes. -/
def Db.HasEnds (db : Db) (t : Tunnel) : Prop := db.HasNode t.serverNodeId ∧ db.HasNode t.clientNodeId

instance (db : Db) (t : Tunnel) : Decidable (db.HasEnds t) := inferInstanceAs (Decidable (_ ∧ _))

/-- The references of all tunnels are good. -/
def Db.Intact (db : Db) : Prop := ∀ t ∈ db.tunnels.rows, db.HasEnds t

instance (db : Db) : Decidable db.Intact := inferInstanceAs (Decidable (∀ t ∈ db.tunnels.rows, db.HasEnds t))

/-- The request creates no tunnel without ends and takes none from a tunnel. -/
def CarefulRefs (db : Db) : Request → Prop
  | .createTunnel id token body => ∀ t, AddsTunnel db id token body t → db.HasEnds t
  | .deleteNode id => ∀ t ∈ db.tunnels, t.serverNodeId ≠ id ∧ t.clientNodeId ≠ id
  | _ => True

variable {db db' : Db}

theorem HasEnds.congr (hnodes : ∀ id, db'.HasNode id ↔ db.HasNode id) {t o : Tunnel} (h : t.face = o.face) :
    db'.HasEnds t ↔ db.HasEnds o := by
  simp only [Tunnel.face, Face.mk.injEq] at h
  obtain ⟨-, -, hserver, hclient, -, -⟩ := h
  rw [Db.HasEnds, Db.HasEnds, hnodes, hnodes, hserver, hclient]

theorem Db.Intact.of_same (h : Same db db') (hi : db.Intact) : db'.Intact := by
  intro t ht
  obtain ⟨o, ho, hf⟩ := h.row ht
  exact (HasEnds.congr h.nodes hf.symm).mpr (hi o ho)

/-- A row in the place of another spoils the references exactly if it is itself without ends. -/
theorem intact_of_replaces {new : Tunnel} (h : Replaces db db' new) (hi : db.Intact) :
    db'.Intact ↔ db.HasEnds new := by
  constructor
  · exact fun hi' => (HasEnds.congr h.nodes rfl).mp (hi' new ((h.tunnels new).mpr (.inl rfl)))
  · intro hnew t ht
    rcases (h.tunnels t).mp ht with rfl | ⟨ht, -⟩
    · exact (HasEnds.congr h.nodes rfl).mpr hnew
    · exact (HasEnds.congr h.nodes rfl).mpr (hi t ht)

theorem intact_createTunnel (hi : db.Intact) (id : BitVec 32) (token : BitVec 64) (body : Option Json) :
    CarefulRefs db (.createTunnel id token body) ↔ (route db (.createTunnel id token body)).2.Intact := by
  rcases route_createTunnel db id token body with ⟨t, new, hadd, hface, hrep⟩ | ⟨hno, hdb⟩
  · rw [intact_of_replaces hrep hi, HasEnds.congr (fun _ => Iff.rfl) hface]
    constructor
    · exact fun hcare => hcare t ((hadd t).mpr rfl)
    · intro hends t' ht'
      rw [(hadd t').mp ht']
      exact hends
  · refine iff_of_true (fun t ht => absurd ht (hno t)) ?_
    rw [hdb]
    exact hi

theorem intact_deleteNode (hi : db.Intact) (id : Text) :
    CarefulRefs db (.deleteNode id) ↔ (route db (.deleteNode id)).2.Intact := by
  have hends : ∀ t ∈ db.tunnels,
      (route db (.deleteNode id)).2.HasEnds t ↔ t.serverNodeId ≠ id ∧ t.clientNodeId ≠ id := by
    intro t ht
    obtain ⟨hserver, hclient⟩ := hi t ht
    rw [Db.HasEnds, route_deleteNode, route_deleteNode]
    simp only [hserver, hclient, true_and]
  constructor
  · exact fun hcare t ht => (hends t ht).mpr (hcare t ht)
  · exact fun hi' t ht => (hends t ht).mp (hi' t ht)

/-- Out of a database with good references, being careful is what keeps them good. -/
theorem carefulRefs_iff (hi : db.Intact) (r : Request) : CarefulRefs db r ↔ (route db r).2.Intact := by
  cases r with
  | createTunnel id token body => exact intact_createTunnel hi id token body
  | deleteNode id => exact intact_deleteNode hi id
  | createNode id token located body =>
    refine iff_of_true trivial ?_
    rcases route_createNode db id token located body with ⟨n, -, htunnels, hnodes⟩ | ⟨-, hdb⟩
    · intro t ht
      rw [htunnels] at ht
      obtain ⟨hserver, hclient⟩ := hi t ht
      exact ⟨(hnodes _).mpr (.inl hserver), (hnodes _).mpr (.inl hclient)⟩
    · rw [hdb]
      exact hi
  | editTunnel id body =>
    refine iff_of_true trivial ?_
    rcases route_editTunnel db id body with ⟨t, e, hedit, hrep⟩ | ⟨-, hdb⟩
    · have ht : t ∈ db.tunnels := (Table.find_eq_some.mp ((hedit t e).mpr ⟨rfl, rfl⟩).1).1
      exact (intact_of_replaces hrep hi).mpr (hi t ht)
    · rw [hdb]
      exact hi
  | setStatus id body =>
    refine iff_of_true trivial ?_
    rcases route_setStatus db id body with ⟨t, status, hsets, hrep⟩ | ⟨-, hsame⟩
    · have ht : t ∈ db.tunnels := (Table.find_eq_some.mp ((hsets t status).mpr ⟨rfl, rfl⟩).1).1
      exact (intact_of_replaces hrep hi).mpr (hi t ht)
    · exact hi.of_same hsame
  | deleteTunnel id => exact iff_of_true trivial fun t ht => hi t (Table.mem_delete.mp ht).1
  | heartbeat token forwarded peer body =>
    exact iff_of_true trivial (hi.of_same (route_heartbeat db token forwarded peer body))
  | restartTunnel id => exact iff_of_true trivial (hi.of_same (route_restartTunnel db id))
  | restartAgents => exact iff_of_true trivial (hi.of_same (route_restartAgents db))
  | traffic body => exact iff_of_true trivial (hi.of_same (route_traffic db body))

variable (repr : Json → Str)

/-- No answer to a node has a tunnel without ends. -/
def Db.SyncEnds (db : Db) : Prop :=
  ∀ n ∈ db.nodes, ∀ es k, agentSync repr db n.token = .ok (es, k) → ∀ e ∈ es,
    ∃ t ∈ db.tunnels, t.id = e.tunnelId ∧ db.HasEnds t

theorem Db.Intact.syncEnds (hi : db.Intact) : db.SyncEnds repr := by
  intro n hn es k hok e he
  obtain ⟨t, ht, hentry⟩ := mem_syncConfigs repr ((agentSync_eq_ok repr hn).mp hok).1 e he
  exact ⟨t, ht, (syncEntry_eq_some repr hentry).2.1.symm, hi t ht⟩

/-- **When references stay good**: the requests of a run are all careful exactly if at no time a
tunnel has an end that is no node; and then no answer to a surviving node has such a tunnel. -/
theorem careful_iff_always_intact (rs : List Request) :
    Along serve CarefulRefs Db.empty rs ↔
      ∀ pre db, pre <+: rs → exec serve Db.empty pre = some db → db.Intact ∧ db.SyncEnds repr := by
  obtain ⟨last, hlast⟩ := exists_exec_serve rs Db.empty
  have hempty : ¬ ¬ Db.empty.Intact := by decide
  have hiff : Along serve CarefulRefs Db.empty rs ↔
      ∀ pre db, pre <+: rs → exec serve Db.empty pre = some db → ¬ ¬ db.Intact := by
    refine along_iff_never (I := fun _ => True) (fun _ _ _ _ _ => trivial) ?_ trivial hempty hlast
    intro db r db' _ hi hserve
    cases hserve
    rw [not_not] at hi ⊢
    exact carefulRefs_iff hi r
  rw [hiff]
  constructor
  · intro h pre db hpre hdb
    have hi : db.Intact := not_not.mp (h pre db hpre hdb)
    exact ⟨hi, hi.syncEnds repr⟩
  · exact fun h pre db hpre hdb => not_not.mpr (h pre db hpre hdb).1

/-- Two nodes and a tunnel; then the node that listens is deleted. -/
def deletedEntry : List Request := openTunnel ++ [.deleteNode (text "node_00000001")]

/-- The tunnel is left, and the other node is still told to run its half. -/
theorem deletedEntry_dangles : ∃ db, exec serve Db.empty deletedEntry = some db ∧ ¬ db.Intact ∧
    db.nodes.rows.map (fun n => (db.entriesAt (fun _ => []) n (text "tun_00000001")).map Entry.role) = [[.client]] :=
  exists_of_any (by decide +kernel)

end Hawal.Panel
