import Hawal.Panel.Received
import Hawal.Panel.Sync

/-!
# The answer of a sync as text

`send_json` sends what `GET /api/agent/sync` puts together as the JSON text `syncText`. All that is in it can be
written and read again, whatever requests have made the rows (`clean_syncAnswer`): a rule with half a
surrogate pair does not hurt, nor does a rule that is no string. How Python prints a list or a dict among the
rules is the parameter `repr`, of which it is known that it escapes what cannot be printed.
-/

namespace Hawal.Panel

open Hawal.Lib Hawal.Lib.Python

variable (repr : Json → Str) {R : FloatReader} {db : Db}

/-! ### The answer -/

/-- The word for a half. -/
def Role.word : Role → Str
  | .server => str "server"
  | .client => str "client"

/-- What an entry says of its core: the key `core_type`, and the keys after `role`. -/
def Payload.fields : Payload → Str × Fields
  | .hawal config => (str "hawal", [(str "config", .dict config)])
  | .backhaul toml => (str "backhaul", [(str "toml", .str toml)])
  | .paqet corePort none yaml => (str "paqet", [(str "core_port", .int corePort), (str "yaml", .str yaml)])
  | .paqet corePort (some ports) yaml =>
    (str "paqet", [(str "core_port", .int corePort), (str "ports", ports), (str "yaml", .str yaml)])
  | .gost command => (str "gost", [(str "command", .list (command.map .str))])

/-- An element of `configs`. -/
def Entry.json (e : Entry) : Json :=
  .dict ([(str "tunnel_id", .str e.tunnelId.val), (str "core_type", .str e.payload.fields.1),
    (str "role", .str e.role.word)] ++ e.payload.fields.2 ++ [(str "restart_nonce", .int e.restartNonce)])

/-- The answer. -/
def syncAnswer (es : List Entry) (nonce : ℤ) : Json :=
  .dict [(str "configs", .list (es.map Entry.json)), (str "agent_restart_nonce", .int nonce)]

/-- `GET /api/agent/sync`, as text. -/
def syncText (db : Db) (token : Text) : Except Failure Str := do
  let (es, nonce) ← agentSync repr db token
  .ok (dumpsIn .spaced (syncAnswer es nonce))

/-! ### Texts for the cores -/

/-- `repr` escapes what cannot be printed, surrogates among it. -/
def ReprPrints : Prop := ∀ v, Unicode (repr v) ∧ Encodable (repr v)

variable {repr} (hrepr : ReprPrints repr)

theorem sealed_of_isWordChar {w : Str} (h : ∀ c ∈ w, isWordChar c = true) : Sealed w := by
  refine sealed_of_encodable (fun c hc => ?_) (encodable_of_isWordChar h)
  have hword := h c hc
  simp [isWordChar, isDecimal] at hword
  omega

/-- How a float is printed. -/
theorem sealed_float {x : Float64} (h : Loaded R (.float x)) : Sealed x.shown := by
  cases h with
  | float w hw =>
    have htext : isFloatWord (floatText (R.read w)) = true := R.isFloatWord_text w hw
    unfold floatText at htext
    split at htext
    · rename_i hnan
      rw [hnan]
      exact sealed_str _
    split at htext
    · rename_i hinf
      rw [hinf]
      exact sealed_str _
    split at htext
    · rename_i hinf
      rw [hinf]
      exact sealed_str _
    · rw [isFloatWord, Bool.and_eq_true, List.all_eq_true] at htext
      exact sealed_of_isWordChar htext.1

include hrepr in
/-- How a rule is printed. -/
theorem Clean.shown {v : Json} (h : Clean R v) : Sound (v.shown repr) := by
  cases v with
  | null => exact (sealed_str _).sound
  | bool b => exact (sealed_str _).sound
  | int n => exact (sealed_decimal n).sound
  | float x => exact (sealed_float h.loaded).sound
  | str s => exact allStrings_str.mp h.sound
  | list xs => exact sound_of_encodable (hrepr _).1 (hrepr _).2
  | dict fields => exact sound_of_encodable (hrepr _).1 (hrepr _).2

/-- What a loop over a value goes through. -/
theorem Clean.iter {v : Json} (h : Clean R v) {xs : List Json} (hxs : v.iter = some xs) : ∀ x ∈ xs, Clean R x := by
  cases v with
  | null => cases hxs
  | bool b => cases hxs
  | int n => cases hxs
  | float x => cases hxs
  | str s =>
    cases hxs
    intro x hx
    obtain ⟨c, hc, rfl⟩ := List.mem_map.mp hx
    exact ⟨.str _, .str ((allStrings_str.mp h.sound).singleton hc)⟩
  | list xs =>
    cases hxs
    have hloaded : ∀ x ∈ xs, Loaded R x := by
      cases h.loaded with
      | list _ h => exact h
    exact fun x hx => ⟨hloaded x hx, allStrings_list.mp h.sound x hx⟩
  | dict fields =>
    cases hxs
    intro x hx
    obtain ⟨f, hf, rfl⟩ := List.mem_map.mp hx
    exact ⟨.str _, .str (allStrings_dict.mp h.sound f hf).1⟩

theorem sealed_quoted {s : Str} (h : Sound s) : Sealed (quoted s) := h.sealed_between (by decide) (by decide)

theorem sealed_hostPort {host : Str} (h : Sealed host) (port : ℤ) : Sealed (hostPort host port) :=
  (h.append (sealed_str _)).append (sealed_decimal port)

theorem sealed_trueFalse (n : ℤ) : Sealed (trueFalse n) := by
  unfold trueFalse
  split
  · exact sealed_str _
  · exact sealed_str _

theorem sealed_nodeIp (hdb : db.Clean R) (id : Text) : Sealed (db.nodeIp id) := by
  unfold Db.nodeIp
  split
  · rename_i n hn
    exact sealed_text (hdb.nodes n (Table.find_eq_some.mp hn).1)
  · exact sealed_str _

include hrepr in
theorem sealed_portsToml {ports : List Json} (h : ∀ p ∈ ports, Clean R p) : Sealed (portsToml repr ports) := by
  refine ((sealed_str _).append (sealed_join (sealed_str _) fun l hl => ?_)).append (sealed_str _)
  obtain ⟨p, hp, rfl⟩ := List.mem_map.mp hl
  exact (sealed_str _).append (sealed_quoted ((h p hp).shown hrepr))

include hrepr in
theorem sealed_serverConfig {t : Tunnel} (ht : t.Clean R) {toml : Str} (h : generateServerConfig repr t = some toml) :
    Sealed toml := by
  obtain ⟨ports, hports, h⟩ := Option.bind_eq_some_iff.mp h
  rw [← Option.some.inj h]
  have hitems := ht.ports.iter hports
  have hline : ∀ (k : String) {s : Str}, Sealed s → Sealed (str k ++ s) := fun k s hs => (sealed_str k).append hs
  refine sealed_unlines ?_
  simp only [List.forall_mem_cons, List.not_mem_nil, false_implies, implies_true, and_true]
  exact ⟨sealed_str _, hline _ (sealed_quoted (sealed_hostPort (sealed_str _) _).sound),
    hline _ (sealed_quoted (sealed_text ht.transport).sound), hline _ (sealed_quoted (sealed_text ht.token).sound),
    hline _ (sealed_portsToml hrepr hitems), hline _ (sealed_trueFalse _), hline _ (sealed_trueFalse _),
    hline _ (sealed_decimal _), hline _ (sealed_decimal _), sealed_str _, sealed_str _, hline _ (sealed_decimal _)⟩

theorem sealed_clientConfig {t : Tunnel} (ht : t.Clean R) {ip : Str} (hip : Sealed ip) :
    Sealed (generateClientConfig t ip) := by
  have hline : ∀ (k : String) {s : Str}, Sealed s → Sealed (str k ++ s) := fun k s hs => (sealed_str k).append hs
  refine sealed_unlines ?_
  simp only [List.forall_mem_cons, List.not_mem_nil, false_implies, implies_true, and_true]
  exact ⟨sealed_str _, hline _ (sealed_quoted (sealed_hostPort hip _).sound),
    hline _ (sealed_quoted (sealed_text ht.transport).sound), hline _ (sealed_quoted (sealed_text ht.token).sound),
    sealed_str _, sealed_str _, hline _ (sealed_trueFalse _), hline _ (sealed_trueFalse _), hline _ (sealed_decimal _),
    sealed_str _, sealed_str _, hline _ (sealed_decimal _)⟩

theorem sealed_marker (name : String) : Sealed (marker name) :=
  ((sealed_str _).append (sealed_str _)).append (sealed_str _)

theorem sealed_paqetTransport {t : Tunnel} (ht : t.Clean R) : ∀ l ∈ paqetTransport t, Sealed l := by
  have hline : ∀ (k : String) {s : Str}, Sealed s → Sealed (str k ++ s) := fun k s hs => (sealed_str k).append hs
  unfold paqetTransport
  simp only [List.forall_mem_cons, List.not_mem_nil, false_implies, implies_true, and_true]
  exact ⟨sealed_str _, sealed_str _, hline _ (sealed_decimal _), sealed_str _, sealed_str _, sealed_str _,
    hline _ (sealed_quoted (sealed_text ht.token).sound), hline _ (sealed_quoted (sealed_str _).sound),
    hline _ (sealed_quoted (sealed_str _).sound), hline _ (sealed_decimal _)⟩

theorem sealed_paqetServerConfig {t : Tunnel} (ht : t.Clean R) : Sealed (generatePaqetServerConfig t) := by
  have hline : ∀ (k : String) {s : Str}, Sealed s → Sealed (str k ++ s) := fun k s hs => (sealed_str k).append hs
  refine sealed_unlines (List.forall_mem_append.mpr ⟨?_, sealed_paqetTransport ht⟩)
  simp only [List.forall_mem_cons, List.not_mem_nil, false_implies, implies_true, and_true]
  exact ⟨sealed_str _, sealed_str _, sealed_str _, sealed_str _, sealed_str _, sealed_str _, sealed_str _,
    hline _ (sealed_quoted (sealed_hostPort sealed_nil _).sound), sealed_str _, sealed_str _,
    hline _ (sealed_quoted (sealed_marker _).sound), sealed_str _,
    hline _ (sealed_quoted (sealed_hostPort (sealed_marker _) _).sound),
    hline _ (sealed_quoted (sealed_marker _).sound), sealed_str _, sealed_str _, sealed_str _, sealed_str _,
    sealed_str _⟩

theorem sound_parsePort {rule : Str} (h : Sound rule) {f : Str × Str} (hf : parsePort rule = some f) :
    Sound f.1 ∧ Sound f.2 := by
  have hlocal : ∀ {s : Str}, Sound s → Sound (withLocalhost s) := fun hs => (sealed_str _).sound_append hs
  have hstrip := h.strip
  unfold parsePort at hf
  simp only at hf
  split at hf
  · cases hf
  · split at hf
    · rename_i target htarget
      cases hf
      have hsound := (hstrip.after htarget).strip
      refine ⟨(hstrip.before _).strip, ?_⟩
      simp only
      split
      · exact hsound
      · exact hlocal hsound
    · split at hf
      · rename_i target htarget
        cases hf
        exact ⟨(hstrip.before _).strip, hlocal (hstrip.after htarget).strip⟩
      · cases hf
        exact ⟨hstrip, hlocal hstrip⟩

include hrepr in
theorem sealed_paqetClientConfig (hdb : db.Clean R) {t : Tunnel} (ht : t.Clean R) {id : Text} {yaml : Str}
    (h : generatePaqetClientConfig repr t (db.nodeIp id) = some yaml) : Sealed yaml := by
  have hline : ∀ (k : String) {s : Str}, Sealed s → Sealed (str k ++ s) := fun k s hs => (sealed_str k).append hs
  obtain ⟨ports, hports, h⟩ := Option.bind_eq_some_iff.mp h
  rw [← Option.some.inj h]
  obtain ⟨items, hitems, rfl⟩ := Option.map_eq_some_iff.mp hports
  have hforwards : ∀ f ∈ items.filterMap fun p => parsePort (p.shown repr), Sound f.1 ∧ Sound f.2 := by
    intro f hf
    obtain ⟨p, hp, hparse⟩ := List.mem_filterMap.mp hf
    exact sound_parsePort ((ht.ports.iter hitems p hp).shown hrepr) hparse
  have hlines : ∀ f : Str × Str, Sound f.1 ∧ Sound f.2 → ∀ l ∈ forwardLines f, Sealed l := by
    intro f hf
    unfold forwardLines
    simp only [List.forall_mem_cons, List.not_mem_nil, false_implies, implies_true, and_true]
    exact ⟨hline _ (sealed_quoted ((sealed_str _).sound_append hf.1)), hline _ (sealed_quoted hf.2), sealed_str _⟩
  refine sealed_unlines (List.forall_mem_append.mpr ⟨List.forall_mem_append.mpr
    ⟨List.forall_mem_append.mpr ⟨?_, ?_⟩, ?_⟩, sealed_paqetTransport ht⟩)
  · simp only [List.forall_mem_cons, List.not_mem_nil, false_implies, implies_true, and_true]
    exact ⟨sealed_str _, sealed_str _, sealed_str _, sealed_str _, sealed_str _, sealed_str _, sealed_str _⟩
  · intro l hl
    obtain ⟨f, hf, hl⟩ := List.mem_flatMap.mp hl
    refine hlines f ?_ l hl
    split at hf
    · rw [List.mem_singleton.mp hf]
      exact ⟨(sealed_str _).sound, (sealed_str _).sound⟩
    · exact hforwards f hf
  · simp only [List.forall_mem_cons, List.not_mem_nil, false_implies, implies_true, and_true]
    exact ⟨sealed_str _, sealed_str _, hline _ (sealed_quoted (sealed_marker _).sound), sealed_str _,
      hline _ (sealed_quoted ((sealed_marker _).append (sealed_str _)).sound),
      hline _ (sealed_quoted (sealed_marker _).sound), sealed_str _, sealed_str _, sealed_str _, sealed_str _,
      sealed_str _, sealed_str _, sealed_str _, hline _ (sealed_quoted (sealed_hostPort (sealed_nodeIp hdb _) _).sound),
      sealed_str _⟩

/-- Percent encoding is ASCII. -/
theorem sealed_quote {secret : Text} (h : Unicode secret.val) : Sealed (quote secret) := by
  have hascii : ∀ c ∈ quote secret, c < 0xD800 := by
    intro c hc
    obtain ⟨b, hb, hc⟩ := List.mem_flatMap.mp hc
    obtain ⟨d, hd, hb⟩ := List.mem_flatMap.mp hb
    have hbyte : b < 256 := by
      have hlt := h d hd
      unfold utf8 at hb
      split at hb
      · simp only [List.mem_singleton] at hb
        omega
      split at hb
      · simp only [List.mem_cons, List.not_mem_nil, or_false] at hb
        omega
      split at hb
      · simp only [List.mem_cons, List.not_mem_nil, or_false] at hb
        omega
      · simp only [List.mem_cons, List.not_mem_nil, or_false] at hb
        omega
    have hdigit : ∀ n < 16, upperHexDigit n < 0xD800 := by decide
    split at hc
    · rw [List.mem_singleton.mp hc]
      omega
    · simp only [List.mem_cons, List.not_mem_nil, or_false] at hc
      rcases hc with rfl | rfl | rfl
      · decide
      · exact hdigit _ (by omega)
      · exact hdigit _ (by omega)
  exact sealed_of_encodable (fun c hc => (hascii c hc).trans (by decide)) fun c hc hs => by have := hascii c hc; omega

theorem sealed_relayUrl {t : Tunnel} (ht : t.Clean R) {host : Str} (hhost : Sealed host) :
    Sealed (relayUrl t host) := by
  have htransport : Sealed (gostTransport t) := by
    have hwords : ∀ w ∈ [str "tls", str "ws", str "kcp", str "quic"], Sealed w := by
      simp only [List.forall_mem_cons, List.not_mem_nil, false_implies, implies_true, and_true]
      exact ⟨sealed_str _, sealed_str _, sealed_str _, sealed_str _⟩
    unfold gostTransport
    simp only
    split
    · rename_i hmem
      exact hwords _ hmem
    · exact sealed_str _
  exact (((((sealed_str _).append htransport).append (sealed_str _)).append (sealed_quote ht.token)).append
    (sealed_str _)).append (sealed_hostPort hhost _)

theorem sound_gostForward {rule : Str} (h : Sound rule) : ∀ arg ∈ gostForward rule, Sound arg := by
  intro arg harg
  unfold gostForward at harg
  split at harg
  · cases harg
  · rename_i target htarget
    have htarget := (h.after htarget).strip
    split at harg
    · cases harg
    · simp only at harg
      split at harg
      · cases harg
      · have hlisten : ∀ (k : String) (port : ℤ), Sound (str k ++ decimal port ++ str "/" ++ strip target) :=
          fun k port => (((sealed_str k).append (sealed_decimal port)).append (sealed_str _)).sound_append htarget
        simp only [List.mem_cons, List.not_mem_nil, or_false] at harg
        rcases harg with rfl | rfl | rfl | rfl
        · exact (sealed_str _).sound
        · exact hlisten _ _
        · exact (sealed_str _).sound
        · exact hlisten _ _

include hrepr in
theorem sound_gostClientCommand (hdb : db.Clean R) {t : Tunnel} (ht : t.Clean R) {id : Text} {command : List Str}
    (h : generateGostClientCommand repr t (db.nodeIp id) = some command) : ∀ arg ∈ command, Sound arg := by
  obtain ⟨ports, hports, h⟩ := Option.bind_eq_some_iff.mp h
  rw [← Option.some.inj h]
  refine List.forall_mem_append.mpr ⟨fun arg harg => ?_, ?_⟩
  · obtain ⟨p, hp, harg⟩ := List.mem_flatMap.mp harg
    exact sound_gostForward ((ht.ports.iter hports p hp).shown hrepr) arg harg
  · simp only [List.forall_mem_cons, List.not_mem_nil, false_implies, implies_true, and_true]
    exact ⟨(sealed_str _).sound, (sealed_relayUrl ht (sealed_nodeIp hdb _)).sound⟩

/-! ### Entries -/

/-- What a payload says can be written and read again. -/
structure Payload.Clean (R : FloatReader) (p : Payload) : Prop where
  fields : ∀ f ∈ p.fields.2, Panel.Clean R f.2

theorem clean_sound {s : Str} (h : Sound s) : Clean R (.str s) := ⟨.str s, .str h⟩

theorem clean_bool (b : Bool) : Clean R (.bool b) := ⟨.bool b, .bool b⟩

theorem clean_dict {fields : Fields} (hnodup : (fields.map Prod.fst).Nodup)
    (h : ∀ f ∈ fields, Sound f.1 ∧ Clean R f.2) : Clean R (.dict fields) :=
  ⟨.dict fields hnodup fun f hf => (h f hf).2.loaded,
    allStrings_dict.mpr fun f hf => ⟨(h f hf).1, (h f hf).2.sound⟩⟩

/-- The six keys of a Hawal configuration. -/
theorem clean_hawalConfig {addressKey : String} {mode : String} {address : Str} (haddress : Sealed address)
    (hkey : (([str "mode", str addressKey, str "ports", str "token", str "enable_padding", str "nodelay"] :
      List Str)).Nodup)
    {t : Tunnel} (ht : t.Clean R) :
    Clean R (.dict [(str "mode", .str (str mode)), (str addressKey, .str address), (str "ports", t.ports),
      (str "token", .str t.token.val), (str "enable_padding", .bool (t.snappy ≠ 0)),
      (str "nodelay", .bool (t.nodelay ≠ 0))]) := by
  refine clean_dict hkey ?_
  simp only [List.forall_mem_cons, List.not_mem_nil, false_implies, implies_true, and_true]
  exact ⟨⟨(sealed_str _).sound, clean_str _⟩, ⟨(sealed_str _).sound, clean_sound haddress.sound⟩,
    ⟨(sealed_str _).sound, ht.ports⟩, ⟨(sealed_str _).sound, clean_sound (sealed_text ht.token).sound⟩,
    ⟨(sealed_str _).sound, clean_bool _⟩, (sealed_str _).sound, clean_bool _⟩

include hrepr in
theorem clean_serverPayload {t : Tunnel} (ht : t.Clean R) {p : Payload} (h : serverPayload repr t = some p) :
    p.Clean R := by
  unfold serverPayload at h
  split at h
  · cases h
    refine ⟨?_⟩
    simp only [Payload.fields, List.forall_mem_cons, List.not_mem_nil, false_implies, implies_true, and_true]
    exact ⟨clean_int ht.corePort, clean_sound (sealed_paqetServerConfig ht).sound⟩
  split at h
  · cases h
    refine ⟨?_⟩
    simp only [Payload.fields, List.forall_mem_cons, List.not_mem_nil, false_implies, implies_true, and_true]
    refine clean_list ?_
    simp only [generateGostServerCommand, List.map_cons, List.map_nil, List.forall_mem_cons, List.not_mem_nil,
      false_implies, implies_true, and_true]
    exact ⟨clean_str _, clean_sound (sealed_relayUrl ht sealed_nil).sound⟩
  split at h
  · cases h
    refine ⟨?_⟩
    simp only [Payload.fields, List.forall_mem_cons, List.not_mem_nil, false_implies, implies_true, and_true]
    exact clean_hawalConfig (sealed_hostPort (sealed_str _) _) (by decide) ht
  · obtain ⟨toml, htoml, rfl⟩ := Option.map_eq_some_iff.mp h
    refine ⟨?_⟩
    simp only [Payload.fields, List.forall_mem_cons, List.not_mem_nil, false_implies, implies_true, and_true]
    exact clean_sound (sealed_serverConfig hrepr ht htoml).sound

include hrepr in
theorem clean_clientPayload (hdb : db.Clean R) {t : Tunnel} (ht : t.Clean R) {id : Text} {p : Payload}
    (h : clientPayload repr t (db.nodeIp id) = some p) : p.Clean R := by
  unfold clientPayload at h
  split at h
  · obtain ⟨yaml, hyaml, rfl⟩ := Option.map_eq_some_iff.mp h
    refine ⟨?_⟩
    simp only [Payload.fields, List.forall_mem_cons, List.not_mem_nil, false_implies, implies_true, and_true]
    exact ⟨clean_int ht.corePort, ht.ports, clean_sound (sealed_paqetClientConfig hrepr hdb ht hyaml).sound⟩
  split at h
  · obtain ⟨command, hcommand, rfl⟩ := Option.map_eq_some_iff.mp h
    refine ⟨?_⟩
    simp only [Payload.fields, List.forall_mem_cons, List.not_mem_nil, false_implies, implies_true, and_true]
    refine clean_list fun v hv => ?_
    obtain ⟨arg, harg, rfl⟩ := List.mem_map.mp hv
    exact clean_sound (sound_gostClientCommand hrepr hdb ht hcommand arg harg)
  split at h
  · cases h
    refine ⟨?_⟩
    simp only [Payload.fields, List.forall_mem_cons, List.not_mem_nil, false_implies, implies_true, and_true]
    exact clean_hawalConfig (sealed_hostPort (sealed_nodeIp hdb _) _) (by decide) ht
  · cases h
    refine ⟨?_⟩
    simp only [Payload.fields, List.forall_mem_cons, List.not_mem_nil, false_implies, implies_true, and_true]
    exact clean_sound (sealed_clientConfig ht (sealed_nodeIp hdb _)).sound

theorem nodup_entryKeys (p : Payload) :
    (([str "tunnel_id", str "core_type", str "role"] : List Str) ++ p.fields.2.map Prod.fst ++
      [str "restart_nonce"]).Nodup := by
  have hkeys : ∀ keys : List Str, keys ∈ [[str "config"], [str "toml"], [str "core_port", str "yaml"],
      [str "core_port", str "ports", str "yaml"], [str "command"]] →
      (([str "tunnel_id", str "core_type", str "role"] : List Str) ++ keys ++ [str "restart_nonce"]).Nodup := by decide
  refine hkeys _ ?_
  cases p with
  | hawal config => simp [Payload.fields]
  | backhaul toml => simp [Payload.fields]
  | paqet corePort ports yaml => cases ports <;> simp [Payload.fields]
  | gost command => simp [Payload.fields]

theorem sealed_payloadKeys (p : Payload) : Sealed p.fields.1 ∧ ∀ f ∈ p.fields.2, Sealed f.1 := by
  cases p with
  | hawal config =>
    exact ⟨sealed_str _, List.forall_mem_singleton.mpr (sealed_str _)⟩
  | backhaul toml => exact ⟨sealed_str _, List.forall_mem_singleton.mpr (sealed_str _)⟩
  | paqet corePort ports yaml =>
    cases ports with
    | none => exact ⟨sealed_str _, by simp [Payload.fields, sealed_str]⟩
    | some ports => exact ⟨sealed_str _, by simp [Payload.fields, sealed_str]⟩
  | gost command => exact ⟨sealed_str _, List.forall_mem_singleton.mpr (sealed_str _)⟩

theorem clean_entry {e : Entry} (hid : Unicode e.tunnelId.val) (hp : e.payload.Clean R)
    (hnonce : Fits64 e.restartNonce) :
    Clean R e.json := by
  have hkeys := sealed_payloadKeys e.payload
  refine clean_dict ?_ ?_
  · have hnodup := nodup_entryKeys e.payload
    rwa [List.map_append, List.map_append]
  · refine List.forall_mem_append.mpr ⟨List.forall_mem_append.mpr ⟨?_, fun f hf => ?_⟩, ?_⟩
    · simp only [List.forall_mem_cons, List.not_mem_nil, false_implies, implies_true, and_true]
      refine ⟨⟨(sealed_str _).sound, clean_text hid e.tunnelId.property⟩,
        ⟨(sealed_str _).sound, clean_sound hkeys.1.sound⟩, (sealed_str _).sound, ?_⟩
      cases e.role with
      | server => exact clean_str _
      | client => exact clean_str _
    · exact ⟨(hkeys.2 f hf).sound, hp.fields f hf⟩
    · exact List.forall_mem_singleton.mpr ⟨(sealed_str _).sound, clean_int hnonce⟩

include hrepr in
/-- What the loop adds for a tunnel. -/
theorem clean_syncEntry (hdb : db.Clean R) {node : Node} {t : Tunnel} (ht : t ∈ db.tunnels)
    (hnonce : Fits64 t.restartNonce) {e : Entry} (h : syncEntry repr db node t = some (some e)) : Clean R e.json := by
  have hrow := hdb.tunnels t ht
  by_cases hrun : t.Running
  · rw [syncEntry_of_running repr hrun] at h
    split at h
    · obtain ⟨p, hp, he⟩ := Option.map_eq_some_iff.mp h
      cases he
      exact clean_entry hrow.id (clean_serverPayload hrepr hrow hp) hnonce
    split at h
    · obtain ⟨p, hp, he⟩ := Option.map_eq_some_iff.mp h
      cases he
      exact clean_entry hrow.id (clean_clientPayload hrepr hdb hrow hp) hnonce
    · cases h
  · rw [syncEntry_of_not_running repr hrun] at h
    cases h

theorem agentSync_cases {token : Text} {es : List Entry} {nonce : ℤ} (h : agentSync repr db token = .ok (es, nonce)) :
    ∃ node ∈ db.nodes, node.token = token ∧ node.agentRestartNonce = nonce ∧
      syncConfigs repr db node db.listTunnels = some es := by
  unfold agentSync at h
  split at h
  · cases h
  · rename_i node hnode
    rw [bind_eq_ok] at h
    obtain ⟨es', hes', h⟩ := h
    cases h
    have hfound := List.find?_some hnode
    exact ⟨node, List.mem_of_find?_eq_some hnode, of_decide_eq_true hfound, rfl, orRaise_eq_ok.mp hes'⟩

theorem fits_of_counted {k : ℕ} (hk : k < 2 ^ 63) {n : ℤ} (h : 0 ≤ n ∧ n ≤ k) : Fits64 n := by
  unfold Fits64
  omega

include hrepr in
/-- An answer can be written and read again. -/
theorem clean_syncAnswer (hdb : db.Clean R) {k : ℕ} (hk : k < 2 ^ 63) (hcounted : db.Counted k) {token : Text}
    {es : List Entry} {nonce : ℤ} (h : agentSync repr db token = .ok (es, nonce)) :
    Clean R (syncAnswer es nonce) := by
  obtain ⟨node, hnode, -, rfl, hes⟩ := agentSync_cases h
  have hentries : ∀ v ∈ es.map Entry.json, Clean R v := by
    intro v hv
    obtain ⟨e, he, rfl⟩ := List.mem_map.mp hv
    obtain ⟨t, ht, hentry⟩ := mem_syncConfigs repr hes e he
    exact clean_syncEntry hrepr hdb ht (fits_of_counted hk (hcounted.tunnels t ht)) hentry
  have hkeys : ([str "configs", str "agent_restart_nonce"] : List Str).Nodup := by decide
  refine clean_dict hkeys ?_
  simp only [List.forall_mem_cons, List.not_mem_nil, false_implies, implies_true, and_true]
  exact ⟨⟨(sealed_str _).sound, clean_list hentries⟩, (sealed_str _).sound,
    clean_int (fits_of_counted hk (hcounted.nodes node hnode))⟩

end Hawal.Panel
