import Hawal.Lib.JavaScript
import Hawal.Panel.Effects

/-!
# The form that edits a tunnel

`openEditTunnelModal` fills the form from a tunnel, and `handleSaveEditTunnel` sends what the form then
holds as a `PUT`. Of a rule the form keeps one number, which becomes a rule of its own when it is sent,
and of the carriers that it offers for a core it selects the first.

* `openEditTunnelModal`, `handleSaveEditTunnel` — the form, and the body of the request.
* `Kept` — saving the form as it was opened leaves the tunnel as it was.
* `kept_iff` — for which tunnels it does.

The form is the one of `templates/index.html`: the name is the value of a text input, which has no line
breaks, and must not be empty; the port of the core is the value of a number input; what is selected of
an element without a selection is the empty string.
-/

namespace Hawal.Panel.EditForm

open Hawal.Lib Hawal.Lib.Python Hawal.Lib.JavaScript

/-! ### The form -/

/-- `STATE.tunnels[i]`, by what the form reads of it. -/
structure Shown where
  name : Str
  coreType : Str
  corePort : ℤ
  ports : List Str

/-- The form. -/
structure Form where
  /-- `edit-tunnel-name`. -/
  name : Str
  /-- `edit-tunnel-core-type`. -/
  coreType : Str
  /-- `edit-tunnel-core-port`. -/
  corePort : Str
  /-- `edit-tunnel-transport`. -/
  transport : Str
  /-- `STATE.editPortTags`. -/
  editPortTags : List ℤ

/-- The value of a text input: what it is set to, without line breaks. -/
def textInput (s : Str) : Str := s.filter fun c => decide (c ≠ 10 ∧ c ≠ 13)

/-- The options of `edit-tunnel-core-type`. -/
def coreTypes : List Str := [str "hawal", str "paqet", str "backhaul", str "gost"]

/-- The value of a `select` that is set to a value. -/
def selected (options : List Str) (s : Str) : Str := if s ∈ options then s else []

/-- The options of `edit-tunnel-transport` that `handleEditCoreTypeChange` makes, the first of which is
selected. -/
def transports (coreType : Str) : List Str :=
  if coreType = str "hawal" then [str "stealth"]
  else if coreType = str "paqet" then [str "kcp"]
  else if coreType = str "gost" then [str "tls", str "ws", str "kcp", str "quic"]
  else [str "ws", str "tcp", str "tcpmux", str "tls"]

/-- The number that is kept of a rule. -/
def portTag (rule : Str) : ℤ := (JavaScript.parseInt (before '='.toNat rule)).getD 80

variable (e : Engine)

/-- `openEditTunnelModal`, with `handleEditCoreTypeChange`. -/
def openEditTunnelModal (t : Shown) : Form :=
  let coreType := selected coreTypes (if t.coreType = [] then str "hawal" else t.coreType)
  { name := textInput t.name
    coreType := coreType
    corePort := e.print t.corePort
    transport := (transports coreType).headD []
    editPortTags := t.ports.map portTag }

/-- A number in JSON, which is printed as an integer or not sent as one. -/
def jsonNumber (n : Option ℤ) : Json := ((n.bind e.plain).map Json.int).getD .null

/-- A rule for a port. -/
def ruleOf (p : ℤ) : Str := e.print p ++ str "=127.0.0.1:" ++ e.print p

/-- `handleSaveEditTunnel`: the body of the request; `none` when the form is not valid or has no port. -/
def handleSaveEditTunnel (f : Form) : Option Json :=
  if f.name = [] ∨ f.corePort = [] ∨ f.editPortTags = [] then none
  else
    some (.dict
      [(str "name", .str f.name), (str "core_type", .str f.coreType),
        (str "core_port", jsonNumber e (JavaScript.parseInt f.corePort)), (str "transport", .str f.transport),
        (str "ports", .list (f.editPortTags.map fun p => .str (ruleOf e p)))])

/-! ### Saving what was opened -/

/-- What the form reads of a row, whose rules are these. -/
def shownOf (t : Tunnel) (rules : List Str) : Shown := ⟨t.name.val, t.coreType.val, t.corePort, rules⟩

/-- What the edit sets is as it was. -/
def SameSettings (t t' : Tunnel) : Prop :=
  t'.name = t.name ∧ t'.coreType = t.coreType ∧ t'.corePort = t.corePort ∧ t'.transport = t.transport ∧
    t'.ports = t.ports

/-- **Saving the form as it was opened changes nothing**: a request is sent and served, and the tunnel is
as it was. -/
def Kept (db : Db) (t : Tunnel) (rules : List Str) : Prop :=
  ∃ body, handleSaveEditTunnel e (openEditTunnelModal e (shownOf t rules)) = some body ∧
    ∃ db', editTunnel db t.id (some body) = .ok db' ∧ ∃ t', db'.getTunnel t.id = some t' ∧ SameSettings t t'

/-- **The tunnels that the form can hold.** -/
structure Holdable (t : Tunnel) (rules : List Str) : Prop where
  name_ne_nil : t.name.val ≠ []
  /-- No line break. -/
  name_line : ∀ c ∈ t.name.val, c ≠ 10 ∧ c ≠ 13
  /-- It is offered. -/
  coreType : t.coreType.val ∈ coreTypes
  /-- It is offered first. -/
  transport : (transports t.coreType.val).head? = some t.transport.val
  corePort : e.Prints t.corePort
  /-- A rule is a port and the same port of the client's machine. -/
  rules : ∀ rule ∈ rules, ∃ n : ℤ, e.Prints n ∧ rule = decimal n ++ str "=127.0.0.1:" ++ decimal n

/-! ### The parts of the form -/

variable {e}

theorem textInput_eq_iff {s : Str} : textInput s = s ↔ ∀ c ∈ s, c ≠ 10 ∧ c ≠ 13 := by
  rw [textInput, List.filter_eq_self]
  simp only [decide_eq_true_eq]

theorem encodable_textInput {s : Str} (h : Encodable s) : Encodable (textInput s) := fun c hc =>
  h c (List.mem_of_mem_filter hc)

/-- The core that is selected. -/
theorem selected_eq_iff {s : Str} : selected coreTypes (if s = [] then str "hawal" else s) = s ↔ s ∈ coreTypes := by
  have hempty : ([] : Str) ∉ coreTypes := by decide
  by_cases hs : s = []
  · rw [if_pos hs, hs]
    exact iff_of_false (by decide) hempty
  · rw [if_neg hs, selected]
    constructor
    · intro h
      by_contra hmem
      rw [if_neg hmem] at h
      exact hs h.symm
    · exact fun h => if_pos h

theorem transports_ne_nil (coreType : Str) : transports coreType ≠ [] := by
  unfold transports
  split_ifs <;> exact List.cons_ne_nil _ _

/-- The carrier that is selected. -/
theorem headD_transports_iff {coreType s : Str} :
    (transports coreType).headD [] = s ↔ (transports coreType).head? = some s := by
  obtain ⟨c, cs, h⟩ := List.exists_cons_of_ne_nil (transports_ne_nil coreType)
  rw [h, List.headD_cons, List.head?_cons, Option.some.injEq]

theorem encodable_headD_transports (coreType : Str) : Encodable ((transports coreType).headD []) := by
  unfold transports
  split_ifs <;> exact encodable_str _

theorem encodable_selected {options : List Str} {s : Str} (h : Encodable s) : Encodable (selected options s) := by
  unfold selected
  split_ifs
  · exact h
  · exact fun c hc => nomatch hc

/-- The number of the core's port is printed as an integer, and sent as what was printed. -/
theorem corePort_sent {n : ℤ} (h : Fits64 n) :
    ∃ m, e.plain n = some m ∧ e.print n ≠ [] ∧ jsonNumber e (JavaScript.parseInt (e.print n)) = .int m := by
  have hsmall : n.natAbs < 10 ^ 20 := by
    have := h.1
    have := h.2
    omega
  obtain ⟨m, hm⟩ := Option.isSome_iff_exists.mp (e.near n hsmall)
  have hprint : e.print n = decimal m := by rw [Engine.print, hm]
  refine ⟨m, hm, ?_, ?_⟩
  · rw [hprint]
    exact decimal_ne_nil m
  · rw [hprint, JavaScript.parseInt_decimal, jsonNumber, Option.bind_some, e.again n m hm]
    rfl

theorem eq_notMem_decimal (n : ℤ) : '='.toNat ∉ decimal n := by
  intro hmem
  rcases mem_decimal hmem with hsign | hdigit
  · exact absurd hsign (by decide)
  · exact absurd hdigit.2 (by decide)

/-- There is no mark in a number. -/
theorem eq_notMem_print (n : ℤ) : '='.toNat ∉ e.print n := by
  unfold Engine.print
  cases h : e.plain n with
  | some m => exact eq_notMem_decimal m
  | none => exact (e.far_form n h).1

/-- The port of a rule that has the form of those that are sent. -/
theorem before_form {port : Str} (h : '='.toNat ∉ port) (s : Str) :
    before '='.toNat (port ++ str "=127.0.0.1:" ++ s) = port := by
  rw [List.append_assoc]
  exact before_append h _

/-- **The rules that come back**: a port and the same port of the client's machine. -/
theorem ruleOf_portTag_iff {rule : Str} :
    ruleOf e (portTag rule) = rule ↔
      ∃ n : ℤ, e.Prints n ∧ rule = decimal n ++ str "=127.0.0.1:" ++ decimal n := by
  constructor
  · intro h
    have hport : before '='.toNat rule = e.print (portTag rule) := by
      conv_lhs => rw [← h]
      exact before_form (eq_notMem_print _) _
    cases hread : JavaScript.parseInt (before '='.toNat rule) with
    | some n =>
      have htag : portTag rule = n := by rw [portTag, hread]; rfl
      rw [htag] at h hport
      obtain ⟨htext, hn⟩ := Engine.eq_decimal_of_print hread hport.symm
      refine ⟨n, hn, ?_⟩
      rw [← h, ruleOf, ← hport, htext]
    | none =>
      have htag : portTag rule = 80 := by rw [portTag, hread]; rfl
      have hprint : e.print 80 = decimal 80 := Engine.print_of_prints (e.safe 80 (by decide))
      rw [hport, htag, hprint, JavaScript.parseInt_decimal] at hread
      cases hread
  · rintro ⟨n, hn, rfl⟩
    have hprint : e.print n = decimal n := Engine.print_of_prints hn
    have htag : portTag (decimal n ++ str "=127.0.0.1:" ++ decimal n) = n := by
      rw [portTag, before_form (eq_notMem_decimal n), JavaScript.parseInt_decimal]
      rfl
    rw [htag, ruleOf, hprint]

/-! ### The request -/

variable (e) in
/-- The fields of the request, when the port of the core is sent as `m`. -/
def sent (t : Tunnel) (rules : List Str) (m : ℤ) : Fields :=
  let f := openEditTunnelModal e (shownOf t rules)
  [(str "name", .str f.name), (str "core_type", .str f.coreType), (str "core_port", .int m),
    (str "transport", .str f.transport), (str "ports", .list (f.editPortTags.map fun p => .str (ruleOf e p)))]

variable (e) in
/-- What they set. -/
def sentEdit (t : Tunnel) (rules : List Str) (m : ℤ) : Edit :=
  let f := openEditTunnelModal e (shownOf t rules)
  { name := ⟨f.name, encodable_textInput t.name.property⟩
    coreType := ⟨f.coreType, encodable_selected (by
      show Encodable (if t.coreType.val = [] then str "hawal" else t.coreType.val)
      split_ifs
      · exact encodable_str _
      · exact t.coreType.property)⟩
    corePort := m
    transport := ⟨f.transport, encodable_headD_transports _⟩
    ports := .list (f.editPortTags.map fun p => .str (ruleOf e p)) }

theorem handleSaveEditTunnel_open {t : Tunnel} {rules : List Str} (hport : Fits64 t.corePort) (hne : rules ≠ []) :
    ∃ m, e.plain t.corePort = some m ∧ handleSaveEditTunnel e (openEditTunnelModal e (shownOf t rules)) =
      if textInput t.name.val = [] then none else some (.dict (sent e t rules m)) := by
  obtain ⟨m, hm, hprint, hsent⟩ := corePort_sent (e := e) hport
  refine ⟨m, hm, ?_⟩
  have htags : (openEditTunnelModal e (shownOf t rules)).editPortTags ≠ [] := fun h => hne (List.map_eq_nil_iff.mp h)
  have hcore : (openEditTunnelModal e (shownOf t rules)).corePort = e.print t.corePort := rfl
  have hname : (openEditTunnelModal e (shownOf t rules)).name = textInput t.name.val := rfl
  rw [handleSaveEditTunnel, hcore, hsent, hname, sent]
  by_cases h : textInput t.name.val = []
  · rw [if_pos h, if_pos (.inl h)]
  · rw [if_neg h, if_neg (not_or.mpr ⟨h, not_or.mpr ⟨hprint, htags⟩⟩)]
    rfl

/-- What the server makes of the request. -/
theorem editOf_sent {t : Tunnel} {rules : List Str} {m : ℤ} (hname : textInput t.name.val ≠ []) :
    editOf (sent e t rules m) m t = if Fits64 m then some (sentEdit e t rules m) else none := by
  have hbind : ∀ (s : Str) (hs : Encodable s), (Json.str s).bindTextNotNull = some ⟨s, hs⟩ := by
    intro s hs
    rw [Json.bindTextNotNull, Json.bindText, dif_pos hs]
    rfl
  have hgetName : (sent e t rules m).get "name" .null = .str (textInput t.name.val) := rfl
  have hgetCore : (sent e t rules m).get "core_type" (.str (str "hawal")) =
      .str (openEditTunnelModal e (shownOf t rules)).coreType := rfl
  have hgetTransport : ∀ d, (sent e t rules m).get "transport" d =
      .str (openEditTunnelModal e (shownOf t rules)).transport := fun _ => rfl
  have hgetPorts : (sent e t rules m).get "ports" (.list []) = .list
      ((openEditTunnelModal e (shownOf t rules)).editPortTags.map fun p => .str (ruleOf e p)) := rfl
  have htruthy : (Json.str (textInput t.name.val)).truthy = true := by
    simpa [Json.truthy] using hname
  rw [editOf, hgetName, hgetCore, hgetTransport, hgetPorts]
  simp only [htruthy, if_true]
  have hbindName : (Json.str (textInput t.name.val)).bindTextNotNull = some (sentEdit e t rules m).name := hbind _ _
  have hbindCore : (Json.str (openEditTunnelModal e (shownOf t rules)).coreType).bindTextNotNull =
      some (sentEdit e t rules m).coreType := hbind _ _
  have hbindTransport : (Json.str (openEditTunnelModal e (shownOf t rules)).transport).bindTextNotNull =
      some (sentEdit e t rules m).transport := hbind _ _
  rw [hbindName, hbindCore, hbindTransport]
  rfl

/-- **What saving the opened form does.** -/
theorem kept_iff_sent {db : Db} {t : Tunnel} {rules : List Str} (h : db.getTunnel t.id = some t)
    (hport : Fits64 t.corePort) (hne : rules ≠ []) :
    ∃ m, e.plain t.corePort = some m ∧
      (Kept e db t rules ↔ textInput t.name.val ≠ [] ∧ Fits64 m ∧ SameSettings t ((sentEdit e t rules m).apply t)) := by
  obtain ⟨m, hm, hsave⟩ := handleSaveEditTunnel_open (e := e) hport hne
  refine ⟨m, hm, ?_⟩
  have hrow : (db.updateTunnel t.id (sentEdit e t rules m)).getTunnel t.id = some ((sentEdit e t rules m).apply t) := by
    have hid : ∀ u, ((sentEdit e t rules m).apply u).id = u.id := fun _ => rfl
    have hreplaces := replaces_updateTunnelRow hid h
    exact Table.find_eq_some.mpr ⟨(hreplaces.tunnels _).mpr (.inl rfl), rfl⟩
  have hget : ((sent e t rules m).get "core_port" (.int 3090)).toInt = some m := rfl
  by_cases hname : textInput t.name.val = []
  · refine iff_of_false ?_ fun hh => hh.1 hname
    rintro ⟨body, hbody, -⟩
    rw [hsave, if_pos hname] at hbody
    cases hbody
  · have hedit : editOf (sent e t rules m) m t = if Fits64 m then some (sentEdit e t rules m) else none :=
      editOf_sent hname
    constructor
    · rintro ⟨body, hbody, db', hok, t', ht', hsame⟩
      rw [hsave, if_neg hname, Option.some.injEq] at hbody
      subst hbody
      obtain ⟨t₀, edit, ⟨ht₀, data, corePort, hdata, hcore, heditOf⟩, rfl⟩ := editTunnel_eq_ok.mp hok
      rw [h, Option.some.injEq] at ht₀
      subst ht₀
      cases hdata
      rw [hget, Option.some.injEq] at hcore
      subst hcore
      rw [hedit] at heditOf
      split_ifs at heditOf with hfits
      cases heditOf
      rw [hrow, Option.some.injEq] at ht'
      exact ⟨hname, hfits, ht' ▸ hsame⟩
    · rintro ⟨-, hfits, hsame⟩
      rw [if_pos hfits] at hedit
      refine ⟨_, hsave.trans (if_neg hname), _, ?_, _, hrow, hsame⟩
      exact editTunnel_eq_ok.mpr ⟨t, _, ⟨h, _, _, rfl, hget, hedit⟩, rfl⟩

/-- What the request sets is what there was. -/
theorem sameSettings_iff {t : Tunnel} {rules : List Str} {m : ℤ} (hports : t.ports = .list (rules.map .str))
    (hm : e.plain t.corePort = some m) :
    SameSettings t ((sentEdit e t rules m).apply t) ↔
      (∀ c ∈ t.name.val, c ≠ 10 ∧ c ≠ 13) ∧ t.coreType.val ∈ coreTypes ∧ e.Prints t.corePort ∧
        (transports t.coreType.val).head? = some t.transport.val ∧
          ∀ rule ∈ rules, ∃ n : ℤ, e.Prints n ∧ rule = decimal n ++ str "=127.0.0.1:" ++ decimal n := by
  have hname : ((sentEdit e t rules m).apply t).name = t.name ↔ ∀ c ∈ t.name.val, c ≠ 10 ∧ c ≠ 13 :=
    Subtype.ext_iff.trans textInput_eq_iff
  have hcore : ((sentEdit e t rules m).apply t).coreType = t.coreType ↔ t.coreType.val ∈ coreTypes :=
    Subtype.ext_iff.trans selected_eq_iff
  have hcorePort : ((sentEdit e t rules m).apply t).corePort = t.corePort ↔ e.Prints t.corePort := by
    show m = t.corePort ↔ e.plain t.corePort = some t.corePort
    rw [hm, Option.some.injEq]
  have hrules : ((sentEdit e t rules m).apply t).ports = t.ports ↔
      ∀ rule ∈ rules, ∃ n : ℤ, e.Prints n ∧ rule = decimal n ++ str "=127.0.0.1:" ++ decimal n := by
    show Json.list ((rules.map portTag).map fun p => .str (ruleOf e p)) = t.ports ↔ _
    rw [hports, Json.list.injEq, List.map_map, List.map_inj_left]
    refine forall₂_congr fun rule _ => ?_
    rw [Function.comp_apply, Json.str.injEq, ruleOf_portTag_iff]
  unfold SameSettings
  rw [hname, hcore, hcorePort, hrules]
  refine and_congr_right fun _ => and_congr_right fun hoffered => and_congr_right fun _ => and_congr_left fun _ => ?_
  -- the carrier is the one of the core that is selected
  show (⟨(transports (selected coreTypes _)).headD [], _⟩ : Text) = t.transport ↔ _
  rw [Subtype.ext_iff]
  show (transports (selected coreTypes (if t.coreType.val = [] then str "hawal" else t.coreType.val))).headD [] =
    t.transport.val ↔ _
  rw [selected_eq_iff.mpr hoffered, headD_transports_iff]

theorem holdable_of_kept {db : Db} {t : Tunnel} {rules : List Str} (h : db.getTunnel t.id = some t)
    (hports : t.ports = .list (rules.map .str)) (hport : Fits64 t.corePort) (hne : rules ≠ [])
    (hkept : Kept e db t rules) : Holdable e t rules := by
  obtain ⟨m, hm, hiff⟩ := kept_iff_sent (e := e) h hport hne
  obtain ⟨hname, -, hsame⟩ := hiff.mp hkept
  obtain ⟨hline, hcore, hprints, htransport, hrules⟩ := (sameSettings_iff hports hm).mp hsame
  rw [textInput_eq_iff.mpr hline] at hname
  exact ⟨hname, hline, hcore, htransport, hprints, hrules⟩

theorem kept_of_holdable {db : Db} {t : Tunnel} {rules : List Str} (h : db.getTunnel t.id = some t)
    (hports : t.ports = .list (rules.map .str)) (hport : Fits64 t.corePort) (hne : rules ≠ [])
    (hh : Holdable e t rules) : Kept e db t rules := by
  obtain ⟨m, hm, hiff⟩ := kept_iff_sent (e := e) h hport hne
  have hprints : e.plain t.corePort = some t.corePort := hh.corePort
  rw [hprints, Option.some.injEq] at hm
  subst hm
  refine hiff.mpr ⟨?_, hport, ?_⟩
  · rw [textInput_eq_iff.mpr hh.name_line]
    exact hh.name_ne_nil
  · exact (sameSettings_iff hports hprints).mpr ⟨hh.name_line, hh.coreType, hh.corePort, hh.transport, hh.rules⟩

/-- **When editing without changes is the identity**: for the tunnels that the form can hold. -/
theorem kept_iff {db : Db} {t : Tunnel} {rules : List Str} (h : db.getTunnel t.id = some t)
    (hports : t.ports = .list (rules.map .str)) (hport : Fits64 t.corePort) (hne : rules ≠ []) :
    Kept e db t rules ↔ Holdable e t rules :=
  ⟨holdable_of_kept h hports hport hne, kept_of_holdable h hports hport hne⟩

/-- A tunnel of a core, with a carrier and a rule. -/
def rowOf (coreType transport : Text) (rule : Str) : Tunnel :=
  { id := text "tun_1", name := text "t", coreType := coreType
    serverNodeId := text "node_a", clientNodeId := text "node_b", corePort := 3090
    transport := transport, ports := .list [.str rule], token := text "s"
    status := text "running", nodelay := 1, snappy := 1, muxCon := 8, keepalive := 75
    channelSize := 2048, restartNonce := 0, bytesIn := .integer 0, bytesOut := .integer 0 }

/-- The database that holds the tunnel. -/
def holding (t : Tunnel) : Db where
  nodes := ⟨[], List.nodup_nil⟩
  tunnels := ⟨[t], List.nodup_singleton _⟩
  tokens := by
    intro r hr
    cases hr

theorem getTunnel_holding (t : Tunnel) : (holding t).getTunnel t.id = some t :=
  Table.find_eq_some.mpr ⟨List.mem_singleton.mpr rfl, rfl⟩

theorem paqet_row_kept :
    Kept .unrounded (holding (rowOf (text "paqet") (text "kcp") (str "443=127.0.0.1:443")))
      (rowOf (text "paqet") (text "kcp") (str "443=127.0.0.1:443")) [str "443=127.0.0.1:443"] := by
  refine (kept_iff (getTunnel_holding _) rfl (by decide) (List.cons_ne_nil _ _)).mpr ?_
  refine ⟨by decide, by decide, by decide, by decide, rfl, fun rule hrule => ?_⟩
  rw [List.mem_singleton.mp hrule]
  exact ⟨443, rfl, by decide⟩

/-- Saved as it was opened, a rule for another address does not stay, and neither does a carrier that is
not the first of its core. -/
theorem row_not_kept :
    (∀ e, ¬ Kept e (holding (rowOf (text "hawal") (text "stealth") (str "443=10.0.0.1:8443")))
      (rowOf (text "hawal") (text "stealth") (str "443=10.0.0.1:8443")) [str "443=10.0.0.1:8443"]) ∧
    str "ws" ∈ transports (str "gost") ∧
    ∀ e, ¬ Kept e (holding (rowOf (text "gost") (text "ws") (str "443=127.0.0.1:443")))
      (rowOf (text "gost") (text "ws") (str "443=127.0.0.1:443")) [str "443=127.0.0.1:443"] := by
  refine ⟨fun e hkept => ?_, by decide, fun e hkept => ?_⟩
  · have hh := holdable_of_kept (getTunnel_holding _) rfl (by decide) (List.cons_ne_nil _ _) hkept
    obtain ⟨n, -, hn⟩ := hh.rules _ List.mem_cons_self
    have hport : JavaScript.parseInt (before '='.toNat (str "443=10.0.0.1:8443")) = some 443 := by decide +kernel
    rw [hn, before_form (eq_notMem_decimal n), JavaScript.parseInt_decimal, Option.some.injEq] at hport
    rw [hport] at hn
    exact absurd hn (by decide)
  · have hh := holdable_of_kept (getTunnel_holding _) rfl (by decide) (List.cons_ne_nil _ _) hkept
    exact absurd hh.transport (by decide)

end Hawal.Panel.EditForm
