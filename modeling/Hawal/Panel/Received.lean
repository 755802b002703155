import Hawal.Panel.Rows
import Hawal.Panel.Settings
import Hawal.Lib.JsonAscii

/-!
# What the panel has received

The bodies of requests are read from texts, and the addresses of a heartbeat come from headers and the socket
(`Request.Received`). All that the panel then has in its rows can be written as JSON and read again: the
numbers have few digits, and the strings are code points that come back from their escapes (`Db.Clean`). The
rules of a tunnel are stored as JSON text in the column `ports_json`; what `list_tunnels` and `get_tunnel` read
out of it is what was saved (`ports_survive_storage`).

How a float is stored in a text column is not known here, but that it is text of Unicode is (`FloatPrints`).
-/

namespace Hawal.Panel

open Hawal.Lib Hawal.Lib.Python

variable {R : FloatReader} {db db' : Db}

/-! ### Values -/

/-- What SQLite stores for a float has code points of Unicode. -/
def FloatPrints (R : FloatReader) : Prop := ∀ w t, (R.read w).column = some t → Unicode t.val

/-- The value was read from text. -/
structure Clean (R : FloatReader) (v : Json) : Prop where
  loaded : Loaded R v
  sound : AllStrings Sound v

theorem clean_of_loads {s : Str} (hs : Unicode s) {v : Json} (h : loads R s = some v) : Clean R v :=
  ⟨loaded_of_loads h, sound_of_loads hs h⟩

theorem clean_null : Clean R .null := ⟨.null, .null⟩

theorem clean_text {s : Str} (hs : Unicode s) (h : Encodable s) : Clean R (.str s) :=
  ⟨.str s, .str (sound_of_encodable hs h)⟩

theorem clean_str (s : String) : Clean R (.str (str s)) := clean_text (unicode_str s) (encodable_str s)

theorem clean_list {xs : List Json} (h : ∀ x ∈ xs, Clean R x) : Clean R (.list xs) :=
  ⟨.list xs fun x hx => (h x hx).loaded, .list fun x hx => (h x hx).sound⟩

/-- Integers of 64 bits have few digits. -/
theorem length_natDigits_of_fits {n : ℤ} (h : Fits64 n) : (natDigits n.natAbs).length ≤ maxStrDigits := by
  have hlt : n.natAbs < 10 ^ maxStrDigits := by
    obtain ⟨hlo, hhi⟩ := h
    have hsmall : n.natAbs < 10 ^ 20 := by omega
    exact hsmall.trans_le (Nat.pow_le_pow_right (by decide) (by decide))
  rw [natDigits, List.length_map]
  exact (Nat.length_toDigits_le_iff (by decide) (by decide)).mpr hlt

theorem clean_int {n : ℤ} (h : Fits64 n) : Clean R (.int n) := ⟨.int n (length_natDigits_of_fits h), .int n⟩

/-- A value of a dict that was read. -/
theorem Clean.get {data : Fields} (h : Clean R (.dict data)) (k : String) {default : Json} (hd : Clean R default) :
    Clean R (data.get k default) := by
  have hloaded : ∀ f ∈ data, Loaded R f.2 := by
    cases h.loaded with
    | dict _ _ h => exact h
  have hsound := allStrings_dict.mp h.sound
  unfold Fields.get
  cases hf : data.find? fun f => f.1 = str k with
  | none => exact hd
  | some f =>
    have hmem : f ∈ data := List.mem_of_find?_eq_some hf
    exact ⟨hloaded f hmem, (hsound f hmem).2⟩

/-- What a column stores of a value that was read. -/
theorem unicode_bindText (hR : FloatPrints R) {v : Json} (hv : Clean R v) {t : Text}
    (h : v.bindTextNotNull = some t) : Unicode t.val := by
  cases v with
  | null => cases h
  | bool b =>
    cases h
    exact unicode_str _
  | int n =>
    rw [Json.bindTextNotNull, Json.bindText] at h
    split at h
    · cases h
      exact (sealed_decimal n).sound.unicode
    · cases h
  | float x =>
    cases hv.loaded with
    | float w _ => exact hR w t h
  | str s =>
    rw [Json.bindTextNotNull, Json.bindText] at h
    split at h
    · cases h
      exact (allStrings_str.mp hv.sound).unicode
    · cases h
  | list xs => cases h
  | dict fields => cases h

/-! ### Requests -/

/-- What the body of a request says. -/
def Request.body : Request → Option Json
  | .createNode _ _ _ body => body
  | .heartbeat _ _ _ body => body
  | .createTunnel _ _ body => body
  | .editTunnel _ body => body
  | .setStatus _ body => body
  | .traffic body => body
  | _ => none

/-- The addresses that a request has besides its body. -/
def Request.addresses : Request → List Text
  | .heartbeat _ forwarded peer _ => [forwarded, peer]
  | _ => []

/-- The body was read from text, and the addresses are text too. -/
structure Request.Received (R : FloatReader) (r : Request) : Prop where
  body : ∀ v, r.body = some v → ∃ s, Unicode s ∧ loads R s = some v
  addresses : ∀ a ∈ r.addresses, Unicode a.val

theorem Request.Received.clean {r : Request} (h : r.Received R) {v : Json} (hv : r.body = some v) : Clean R v := by
  obtain ⟨s, hs, hloads⟩ := h.body v hv
  exact clean_of_loads hs hloads

/-! ### Rows -/

/-- The columns of a tunnel that others are told of. -/
structure Tunnel.Clean (R : FloatReader) (t : Tunnel) : Prop where
  id : Unicode t.id.val
  transport : Unicode t.transport.val
  token : Unicode t.token.val
  ports : Panel.Clean R t.ports
  corePort : Fits64 t.corePort
  muxCon : Fits64 t.muxCon
  channelSize : Fits64 t.channelSize

/-- All rows. -/
structure Db.Clean (R : FloatReader) (db : Db) : Prop where
  tunnels : ∀ t ∈ db.tunnels, t.Clean R
  nodes : ∀ n ∈ db.nodes, Unicode n.ip.val

theorem clean_empty : Db.empty.Clean R :=
  ⟨fun t ht => absurd ht (Table.not_mem_empty t), fun n hn => absurd hn (Table.not_mem_empty n)⟩

theorem unicode_hexDigits (k n : ℕ) : Unicode (hexDigits k n) := by
  induction k generalizing n with
  | zero => exact List.forall_mem_nil _
  | succ k ih =>
    refine (ih _).append (List.forall_mem_singleton.mpr ?_)
    have hdigit : ∀ m < 16, (Nat.digitChar m).toNat < 0x110000 := by decide
    exact hdigit _ (Nat.mod_lt _ (by decide))

theorem clean_defaultTransport (coreType : Json) : Clean R (defaultTransport coreType) := by
  unfold defaultTransport
  split
  · exact clean_str _
  split
  · exact clean_str _
  split
  · exact clean_str _
  · exact clean_str _

/-- A new tunnel. -/
theorem AddsTunnel.clean (hR : FloatPrints R) {id : BitVec 32} {token : BitVec 64} {body : Option Json} {t : Tunnel}
    (h : AddsTunnel db id token body t) (hbody : ∀ v, body = some v → Clean R v) : t.Clean R := by
  obtain ⟨data, form, rfl, hform, -, hnew⟩ := h
  have hdata : Clean R (.dict data) := hbody _ rfl
  simp only [tunnelForm, Option.bind_eq_bind, Option.bind_eq_some_iff] at hform
  obtain ⟨corePort, -, hform⟩ := hform
  cases hform
  simp only [newTunnel, Option.bind_eq_bind, Option.bind_eq_some_iff] at hnew
  obtain ⟨name, -, coreType, -, server, -, client, -, transport, htransport, hnew⟩ := hnew
  split at hnew
  · rename_i hfits
    cases hnew
    have hports : Clean R (.list [.str (str "443=127.0.0.1:443")]) :=
      clean_list (List.forall_mem_singleton.mpr (clean_str _))
    exact
      { id := (unicode_str "tun_").append (unicode_hexDigits 8 _)
        transport := unicode_bindText hR (hdata.get _ (clean_defaultTransport _)) htransport
        token := unicode_hexDigits 16 _
        ports := hdata.get _ hports
        corePort := hfits
        muxCon := by simp [Fits64]
        channelSize := by simp [Fits64] }
  · cases hnew

/-- An edited tunnel. -/
theorem Edits.clean (hR : FloatPrints R) {id : Text} {body : Option Json} {t : Tunnel} {e : Edit}
    (h : Edits db id body t e) (hbody : ∀ v, body = some v → Clean R v) (ht : t.Clean R) : (e.apply t).Clean R := by
  obtain ⟨-, data, corePort, rfl, -, hedit⟩ := h
  have hdata : Clean R (.dict data) := hbody _ rfl
  simp only [editOf, Option.bind_eq_bind, Option.bind_eq_some_iff] at hedit
  obtain ⟨name, -, transport, htransport, coreType, -, hedit⟩ := hedit
  split at hedit
  · rename_i hfits
    cases hedit
    exact
      { ht with
        transport := unicode_bindText hR (hdata.get _ (clean_defaultTransport _)) htransport
        ports := hdata.get _ (clean_list (List.forall_mem_nil _))
        corePort := hfits }
  · cases hedit

theorem AddsNode.clean (hR : FloatPrints R) {id : BitVec 32} {token : BitVec 128} {located : Bool}
    {body : Option Json} {n : Node} (h : AddsNode db id token located body n)
    (hbody : ∀ v, body = some v → Clean R v) : Unicode n.ip.val := by
  obtain ⟨⟨data, rfl, hnew⟩, -⟩ := h
  have hdata : Clean R (.dict data) := hbody _ rfl
  simp only [newNode, Option.bind_eq_bind, Option.bind_eq_some_iff] at hnew
  obtain ⟨name, -, ip, hip, role, -, hnew⟩ := hnew
  split at hnew
  · cases hnew
    exact unicode_bindText hR (hdata.get _ (clean_str _)) hip
  · cases hnew

theorem clean_clientIp {forwarded peer : Text} (hforwarded : Unicode forwarded.val) (hpeer : Unicode peer.val)
    {data : Fields} (hdata : Clean R (.dict data)) : Clean R (clientIp forwarded peer data) := by
  unfold clientIp
  simp only
  split
  · exact clean_text hforwarded forwarded.property
  split
  · exact hdata.get _ clean_null
  · exact clean_text hpeer peer.property

theorem Request.Received.tunnel (hR : FloatPrints R) {r : Request} (hr : r.Received R)
    (hdb : ∀ t ∈ db.tunnels, t.Clean R) {t : Tunnel} (h : RowFrom db r t) : t.Clean R := by
  cases h with
  | kept ht => exact hdb t ht
  | created h => exact h.clean hR fun v hv => hr.clean hv
  | merged h ho hid =>
    have hnew := h.clean hR fun v hv => hr.clean hv
    exact { hnew with id := (hdb _ ho).id }
  | edited h => exact h.clean hR (fun v hv => hr.clean hv) (hdb _ (Table.find_eq_some.mp h.1).1)
  | moved ht => exact { hdb _ ht with }
  | restarted ht => exact { hdb _ ht with }
  | counted ht => exact { hdb _ ht with }

theorem Request.Received.node (hR : FloatPrints R) {r : Request} (hr : r.Received R)
    (hdb : ∀ n ∈ db.nodes, Unicode n.ip.val) {n : Node} (h : NodeFrom db r n) : Unicode n.ip.val := by
  cases h with
  | kept hn => exact hdb n hn
  | created h => exact h.clean hR fun v hv => hr.clean hv
  | merged h ho => exact h.clean hR fun v hv => hr.clean hv
  | seen hn hbody hip =>
    have haddresses := hr.addresses
    simp only [Request.addresses, List.forall_mem_cons] at haddresses
    exact unicode_bindText hR (clean_clientIp haddresses.1 haddresses.2.1 (hr.clean hbody)) hip
  | @restarted n hn => exact hdb n hn

/-- Requests leave the rows so that they can be told. -/
theorem clean_exec (hR : FloatPrints R) {rs : List Request} (hrs : ∀ r ∈ rs, r.Received R) (h : db.Clean R)
    (hrun : exec serve db rs = some db') : db'.Clean R := by
  refine exec_inv_of (P := fun r => Request.Received R r) (fun s r s' hs hr hstep => ?_) h hrs hrun
  cases hstep
  exact ⟨fun t ht => hr.tunnel hR hs.tunnels (rowFrom_route ht), fun n hn => hr.node hR hs.nodes (nodeFrom_route hn)⟩

/-! ### Nonces -/

/-- The nonces count at most the requests so far. -/
structure Db.Counted (k : ℕ) (db : Db) : Prop where
  tunnels : ∀ t ∈ db.tunnels, 0 ≤ t.restartNonce ∧ t.restartNonce ≤ k
  nodes : ∀ n ∈ db.nodes, 0 ≤ n.agentRestartNonce ∧ n.agentRestartNonce ≤ k

theorem counted_empty : Db.empty.Counted 0 :=
  ⟨fun t ht => absurd ht (Table.not_mem_empty t), fun n hn => absurd hn (Table.not_mem_empty n)⟩

theorem AddsTunnel.nonce {id : BitVec 32} {token : BitVec 64} {body : Option Json} {t : Tunnel}
    (h : AddsTunnel db id token body t) : t.restartNonce = 0 := by
  obtain ⟨data, form, -, -, -, hnew⟩ := h
  simp only [newTunnel, Option.bind_eq_bind, Option.bind_eq_some_iff] at hnew
  obtain ⟨name, -, coreType, -, server, -, client, -, transport, -, hnew⟩ := hnew
  split at hnew
  · cases hnew
    rfl
  · cases hnew

theorem AddsNode.nonce {id : BitVec 32} {token : BitVec 128} {located : Bool} {body : Option Json} {n : Node}
    (h : AddsNode db id token located body n) : n.agentRestartNonce = 0 := by
  obtain ⟨⟨data, -, hnew⟩, -⟩ := h
  simp only [newNode, Option.bind_eq_bind, Option.bind_eq_some_iff] at hnew
  obtain ⟨name, -, ip, -, role, -, hnew⟩ := hnew
  split at hnew
  · cases hnew
    rfl
  · cases hnew

theorem RowFrom.nonce {k : ℕ} (h : db.Counted k) {r : Request} {t : Tunnel} (ht : RowFrom db r t) :
    0 ≤ t.restartNonce ∧ t.restartNonce ≤ (k + 1 : ℕ) := by
  have hold : ∀ o ∈ db.tunnels, 0 ≤ o.restartNonce ∧ o.restartNonce ≤ (k + 1 : ℕ) := by
    intro o ho
    obtain ⟨hlo, hhi⟩ := h.tunnels o ho
    exact ⟨hlo, by omega⟩
  cases ht with
  | kept ho => exact hold _ ho
  | created hadd =>
    rw [hadd.nonce]
    omega
  | @merged _ _ _ _ o hadd ho hid => exact hold o ho
  | @edited _ _ o _ hedit => exact hold o (Table.find_eq_some.mp hedit.1).1
  | @moved _ _ o _ ho => exact hold o ho
  | @restarted _ o ho hid =>
    obtain ⟨hlo, hhi⟩ := h.tunnels o ho
    simp only
    omega
  | @counted _ o _ _ ho => exact hold o ho

theorem NodeFrom.nonce {k : ℕ} (h : db.Counted k) {r : Request} {n : Node} (hn : NodeFrom db r n) :
    0 ≤ n.agentRestartNonce ∧ n.agentRestartNonce ≤ (k + 1 : ℕ) := by
  have hold : ∀ o ∈ db.nodes, 0 ≤ o.agentRestartNonce ∧ o.agentRestartNonce ≤ (k + 1 : ℕ) := by
    intro o ho
    obtain ⟨hlo, hhi⟩ := h.nodes o ho
    exact ⟨hlo, by omega⟩
  cases hn with
  | kept ho => exact hold _ ho
  | created hadd =>
    rw [hadd.nonce]
    omega
  | @merged _ _ _ _ _ o hadd ho => exact hold o ho
  | @seen _ _ _ _ _ _ o ho _ _ => exact hold o ho
  | @restarted o ho =>
    obtain ⟨hlo, hhi⟩ := h.nodes o ho
    simp only
    omega

theorem counted_route {k : ℕ} (h : db.Counted k) (r : Request) : (route db r).2.Counted (k + 1) :=
  ⟨fun _ ht => (rowFrom_route ht).nonce h, fun _ hn => (nodeFrom_route hn).nonce h⟩

theorem counted_exec {rs : List Request} (hrun : exec serve Db.empty rs = some db) : db.Counted rs.length := by
  have hstep : ∀ k s r s', Db.Counted k s → True → serve s r = some s' → Db.Counted (k + 1) s' := by
    intro k s r s' hs _ hserve
    cases hserve
    exact counted_route hs r
  have h := exec_inv_counted hstep counted_empty (fun _ _ => trivial) hrun
  rwa [Nat.zero_add] at h

/-! ### The column `ports_json` -/

/-- What `save_tunnel` and `update_tunnel` write. -/
def portsJson (ports : Json) : Str := dumpsIn .spaced ports

/-- What `list_tunnels` and `get_tunnel` read. -/
def readPorts (R : FloatReader) (column : Str) : Json := (loads R column).getD (.list [])

/-- **Rules survive storage**: whatever the requests were, each tunnel's rules are read out of the column as
they were written into it. -/
theorem ports_survive_storage (hR : FloatPrints R) {rs : List Request} (hrs : ∀ r ∈ rs, r.Received R)
    (hrun : exec serve Db.empty rs = some db) : ∀ t ∈ db.tunnels,
      loads R (portsJson t.ports) = some t.ports ∧ readPorts R (portsJson t.ports) = t.ports := by
  intro t ht
  have hports : Clean R t.ports := ((clean_exec hR hrs clean_empty hrun).tunnels t ht).ports
  have hread : loads R (portsJson t.ports) = some t.ports := loads_dumpsIn .spaced hports.loaded hports.sound
  rw [readPorts, hread]
  exact ⟨rfl, rfl⟩

theorem floatPrints_verbatim : FloatPrints Settings.verbatim := by
  intro w t h
  have hnone : (Settings.verbatim.read w).column = none := rfl
  rw [hnone] at h
  cases h

/-- A body, as it is sent. -/
def sent (s : String) : Option Json := loads Settings.verbatim (str s)

/-- A tunnel with a rule that has an accent, and one that has half of a pair. -/
def accentedTunnel : List Request :=
  [.createNode 1 1 true (sent "\x7b\x7d"),
    .createTunnel 1 1 (sent
      "\x7b\"server_node_id\": \"node_00000001\", \"client_node_id\": \"b\", \"ports\": [\"é\", \"\\ud83d\"]\x7d")]

theorem received_of_no_body {R : FloatReader} {r : Request} (hbody : r.body = none) (haddresses : r.addresses = []) :
    r.Received R := by
  constructor
  · intro v hv
    rw [hbody] at hv
    cases hv
  · intro a ha
    rw [haddresses] at ha
    cases ha

theorem received_sent {r : Request} {s : String} (hbody : r.body = sent s) (haddresses : r.addresses = []) :
    r.Received Settings.verbatim := by
  constructor
  · exact fun v hv => ⟨str s, unicode_str s, hbody.symm.trans hv⟩
  · intro a ha
    rw [haddresses] at ha
    cases ha

theorem accentedTunnel_received : ∀ r ∈ accentedTunnel, r.Received Settings.verbatim := by
  intro r hr
  simp only [accentedTunnel, List.mem_cons, List.not_mem_nil, or_false] at hr
  rcases hr with rfl | rfl
  · exact received_sent rfl rfl
  · exact received_sent rfl rfl

theorem accentedTunnel_survives : ∃ db, exec serve Db.empty accentedTunnel = some db ∧
    ∃ t ∈ db.tunnels, readPorts Settings.verbatim (portsJson t.ports) = t.ports := by
  obtain ⟨db, hrun, hrow⟩ : ∃ db, exec serve Db.empty accentedTunnel = some db ∧ db.tunnels.rows ≠ [] :=
    exists_of_any (by decide +kernel)
  obtain ⟨t, ht⟩ := List.exists_mem_of_ne_nil _ hrow
  exact ⟨db, hrun, t, ht, (ports_survive_storage floatPrints_verbatim accentedTunnel_received hrun t ht).2⟩

end Hawal.Panel
