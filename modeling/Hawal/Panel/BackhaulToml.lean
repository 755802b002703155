import Hawal.Lib.Toml
import Hawal.Panel.Engines
import Hawal.Panel.Routes

/-!
# Reading the configurations of Backhaul

`generate_server_config` puts the transport, the token and the rules of a tunnel between quotation marks
as they are, and `generate_client_config` the address of the server, the transport and the token. Here the
texts are read again as TOML.

* `serverDocument`, `clientDocument` — the settings that the texts are meant to hold.
* `read_generateServerConfig_iff`, `read_generateClientConfig_iff` — they hold these and no others exactly
  when there is no quotation mark, no backslash and no control character but the tab in any of the strings.

The token is drawn by the panel, in digits of base sixteen (`basic_tokenHex`); the transport and the rules
come from the request.
-/

namespace Hawal.Panel.BackhaulToml

open Hawal.Lib Hawal.Lib.Python

open Toml (Basic Leads Spells EndsLine)

variable (repr : Json → Str)

/-! ### The settings -/

/-- The keys of `[server]`, with the value that each is meant to have. -/
def serverSettings (t : Tunnel) (rules : List Str) : List (Str × Toml.Value) :=
  [(str "bind_addr", .string (hostPort (str "0.0.0.0") t.corePort)),
    (str "transport", .string t.transport.val),
    (str "token", .string t.token.val),
    (str "ports", .array (rules.map .string)),
    (str "nodelay", .bool (t.nodelay ≠ 0)),
    (str "snappy", .bool (t.snappy ≠ 0)),
    (str "keepalive_period", .int t.keepalive),
    (str "channel_size", .int t.channelSize),
    (str "log_level", .string (str "info")),
    (str "heartbeat", .int 40),
    (str "mux_con", .int t.muxCon)]

/-- **The document that the text is meant to be.** -/
def serverDocument (t : Tunnel) (rules : List Str) : Toml.Document where
  headers := [str "server"]
  entries := (serverSettings t rules).map fun s => (str "server", s.1, s.2)

/-- The lines of the text, each with the value that it is meant to say. -/
def serverLines (t : Tunnel) (rules : List Str) : List (Str × Str × Toml.Value) :=
  [(str "bind_addr", quoted (hostPort (str "0.0.0.0") t.corePort), .string (hostPort (str "0.0.0.0") t.corePort)),
    (str "transport", quoted t.transport.val, .string t.transport.val),
    (str "token", quoted t.token.val, .string t.token.val),
    (str "ports", portsToml repr (rules.map .str), .array (rules.map .string)),
    (str "nodelay", trueFalse t.nodelay, .bool (t.nodelay ≠ 0)),
    (str "snappy", trueFalse t.snappy, .bool (t.snappy ≠ 0)),
    (str "keepalive_period", decimal t.keepalive, .int t.keepalive),
    (str "channel_size", decimal t.channelSize, .int t.channelSize),
    (str "log_level", quoted (str "info"), .string (str "info")),
    (str "heartbeat", decimal 40, .int 40),
    (str "mux_con", decimal t.muxCon, .int t.muxCon)]

/-- The keys of `[client]`, with the value that each is meant to have. -/
def clientSettings (t : Tunnel) (serverIp : Str) : List (Str × Toml.Value) :=
  [(str "remote_addr", .string (hostPort serverIp t.corePort)),
    (str "transport", .string t.transport.val),
    (str "token", .string t.token.val),
    (str "connection_pool", .int 4),
    (str "retry_interval", .int 3),
    (str "nodelay", .bool (t.nodelay ≠ 0)),
    (str "snappy", .bool (t.snappy ≠ 0)),
    (str "keepalive_period", .int t.keepalive),
    (str "log_level", .string (str "info")),
    (str "dial_timeout", .int 10),
    (str "mux_con", .int t.muxCon)]

/-- **The document that the client's text is meant to be.** -/
def clientDocument (t : Tunnel) (serverIp : Str) : Toml.Document where
  headers := [str "client"]
  entries := (clientSettings t serverIp).map fun s => (str "client", s.1, s.2)

/-- The lines of the client's text. -/
def clientLines (t : Tunnel) (serverIp : Str) : List (Str × Str × Toml.Value) :=
  [(str "remote_addr", quoted (hostPort serverIp t.corePort), .string (hostPort serverIp t.corePort)),
    (str "transport", quoted t.transport.val, .string t.transport.val),
    (str "token", quoted t.token.val, .string t.token.val),
    (str "connection_pool", decimal 4, .int 4),
    (str "retry_interval", decimal 3, .int 3),
    (str "nodelay", trueFalse t.nodelay, .bool (t.nodelay ≠ 0)),
    (str "snappy", trueFalse t.snappy, .bool (t.snappy ≠ 0)),
    (str "keepalive_period", decimal t.keepalive, .int t.keepalive),
    (str "log_level", quoted (str "info"), .string (str "info")),
    (str "dial_timeout", decimal 10, .int 10),
    (str "mux_con", decimal t.muxCon, .int t.muxCon)]

/-- A line of the text. -/
def settingLine (p : Str × Str × Toml.Value) : Str := p.1 ++ str " = " ++ p.2.1

/-- A text of one table. -/
def tableText (table : Str) (ps : List (Str × Str × Toml.Value)) : Str :=
  str "[" ++ (table ++ str "]") ++ str "\n" ++ unlines (ps.map settingLine)

/-- What a text of one table is meant to say. -/
def meant (table : Str) (ps : List (Str × Str × Toml.Value)) : Toml.Document where
  headers := [table]
  entries := ps.map fun p => (table, p.1, p.2.2)

/-- The names are bare, and no key is there twice. -/
structure IsTable (table : Str) (ps : List (Str × Str × Toml.Value)) : Prop where
  name : table ≠ [] ∧ Toml.isBare table = true
  keys : ∀ p ∈ ps, p.1 ≠ [] ∧ Toml.isBare p.1 = true
  nodup : (ps.map fun p => p.1).Nodup

variable {repr} {t : Tunnel} {rules : List Str}

theorem generateServerConfig_eq (hports : t.ports = .list (rules.map .str)) :
    generateServerConfig repr t = some (tableText (str "server") (serverLines repr t rules)) := by
  rw [generateServerConfig, hports]
  rfl

theorem generateClientConfig_eq (t : Tunnel) (serverIp : Str) :
    generateClientConfig t serverIp = tableText (str "client") (clientLines t serverIp) := rfl

theorem isTable_server : IsTable (str "server") (serverLines repr t rules) where
  name := by decide
  keys := by
    have hall : ∀ k ∈ (serverLines repr t rules).map fun p => p.1, k ≠ [] ∧ Toml.isBare k = true := by
      show ∀ k ∈ [str "bind_addr", str "transport", str "token", str "ports", str "nodelay", str "snappy",
        str "keepalive_period", str "channel_size", str "log_level", str "heartbeat", str "mux_con"], _
      decide
    exact fun p hp => hall p.1 (List.mem_map_of_mem hp)
  nodup := by
    show [str "bind_addr", str "transport", str "token", str "ports", str "nodelay", str "snappy",
      str "keepalive_period", str "channel_size", str "log_level", str "heartbeat", str "mux_con"].Nodup
    decide

theorem isTable_client {serverIp : Str} : IsTable (str "client") (clientLines t serverIp) where
  name := by decide
  keys := by
    have hall : ∀ k ∈ (clientLines t serverIp).map fun p => p.1, k ≠ [] ∧ Toml.isBare k = true := by
      show ∀ k ∈ [str "remote_addr", str "transport", str "token", str "connection_pool", str "retry_interval",
        str "nodelay", str "snappy", str "keepalive_period", str "log_level", str "dial_timeout", str "mux_con"], _
      decide
    exact fun p hp => hall p.1 (List.mem_map_of_mem hp)
  nodup := by
    show [str "remote_addr", str "transport", str "token", str "connection_pool", str "retry_interval",
      str "nodelay", str "snappy", str "keepalive_period", str "log_level", str "dial_timeout", str "mux_con"].Nodup
    decide

/-! ### Reading the lines -/

theorem quoted_eq (s : Str) : quoted s = 34 :: (s ++ [34]) := rfl

theorem basic_decimal (n : ℤ) : Basic (decimal n) := by
  intro c hc
  rcases mem_decimal hc with rfl | h
  · decide
  · have hlo := h.1
    have hhi := h.2
    simp [Toml.isBasicChar]
    omega

theorem basic_hostPort {host : Str} (n : ℤ) : Basic (hostPort host n) ↔ Basic host := by
  have hcolon : Basic (str ":") := by decide
  constructor
  · exact fun h c hc => h c (List.mem_append_left _ (List.mem_append_left _ hc))
  · exact fun h => List.forall_mem_append.mpr ⟨List.forall_mem_append.mpr ⟨h, hcolon⟩, basic_decimal n⟩

/-- The address of the server's text. -/
theorem spells_bind (n : ℤ) :
    Spells (quoted (hostPort (str "0.0.0.0") n)) (.string (hostPort (str "0.0.0.0") n)) :=
  Toml.spells_quoted ((basic_hostPort n).mpr (by decide))

/-- The token that is drawn. -/
theorem basic_tokenHex (digits n : ℕ) : Basic (tokenHex digits n).val := by
  have hall : ∀ d < 16, Toml.isBasicChar (Nat.digitChar d).toNat = true := by decide
  show Basic (hexDigits digits n)
  induction digits generalizing n with
  | zero => exact List.forall_mem_nil _
  | succ digits ih =>
    refine List.forall_mem_append.mpr ⟨ih _, ?_⟩
    rw [List.forall_mem_singleton]
    exact hall _ (Nat.mod_lt _ (by decide))

theorem spells_trueFalse (n : ℤ) : Spells (trueFalse n) (.bool (n ≠ 0)) := by
  unfold trueFalse
  by_cases h : n ≠ 0
  · rw [if_pos h, decide_eq_true h]
    exact Toml.spells_word (by decide) (by decide) rfl
  · rw [if_neg h, decide_eq_false h]
    exact Toml.spells_word (by decide) (by decide) (by rfl)

/-- A rule in the array. -/
def itemLine (rule : Str) : Str := str "  " ++ quoted rule

section Items

variable {doc doc' : Toml.Document} {key : Str} {done : List Toml.Value}

theorem leads_item {rule : Str} (h : Basic rule) :
    Leads (itemLine rule) ⟨doc, .value key [done]⟩ ⟨doc, .item key [done ++ [.string rule]]⟩ :=
  Leads.append (.marks (by decide) rfl) (.quoted h rfl)

/-- The rules, from where a value can be to where the array can end. -/
theorem leads_items (h : ∀ rule ∈ rules, Basic rule) :
    ∀ done : List Toml.Value, rules ≠ [] →
      Leads (join (str ",\n") (rules.map itemLine)) ⟨doc, .value key [done]⟩
        ⟨doc, .item key [done ++ rules.map .string]⟩ := by
  induction rules with
  | nil => exact fun _ hne => absurd rfl hne
  | cons rule rules ih =>
    intro done _
    rw [List.forall_mem_cons] at h
    cases rules with
    | nil => exact leads_item h.1
    | cons rule' rules =>
      have hcomma : Leads (str ",\n") ⟨doc, .item key [done ++ [.string rule]]⟩
          ⟨doc, .value key [done ++ [.string rule]]⟩ := .marks (by decide) rfl
      have hdone : done ++ (rule :: rule' :: rules).map .string =
          done ++ [.string rule] ++ (rule' :: rules).map .string := by
        rw [List.append_assoc]
        rfl
      rw [hdone]
      exact ((leads_item h.1).append hcomma).append (ih h.2 _ (List.cons_ne_nil _ _))

end Items

theorem spells_portsToml (h : ∀ rule ∈ rules, Basic rule) :
    Spells (portsToml repr (rules.map .str)) (.array (rules.map .string)) := by
  intro doc doc' key henter
  have hopen : Leads (str "[\n") ⟨doc, .value key []⟩ ⟨doc, .value key [[]]⟩ := .marks (by decide) rfl
  have hitems : (rules.map Json.str).map (fun p => str "  " ++ quoted (p.shown repr)) = rules.map itemLine :=
    List.map_map
  have htext : portsToml repr (rules.map .str) ++ str "\n" =
      str "[\n" ++ (join (str ",\n") (rules.map itemLine) ++ str "\n]\n") := by
    rw [portsToml, hitems]
    simp only [List.append_assoc]
    rfl
  rw [htext]
  refine hopen.append ?_
  -- the array ends after a rule, or where the first could be
  have hend : Toml.close doc key [rules.map .string] = some ⟨doc', .lineEnd⟩ := Toml.place_nil henter
  cases rules with
  | nil =>
    refine .marks (by decide) ?_
    show (Toml.close doc key [[]]).bind _ = _
    rw [show Toml.close doc key [[]] = _ from hend]
    rfl
  | cons rule rules =>
    have hclose : Leads (str "\n]\n") ⟨doc, .item key [(rule :: rules).map .string]⟩ ⟨doc', .line⟩ := by
      refine .marks (by decide) ?_
      show (Toml.close doc key [(rule :: rules).map .string]).bind _ = _
      rw [hend]
      rfl
    exact (leads_items h [] (List.cons_ne_nil _ _)).append hclose

/-! ### Reading the text -/

/-- The document after the header. -/
def headed (table : Str) : Toml.Document := ⟨[table], []⟩

section Table

variable {table : Str} {ps : List (Str × Str × Toml.Value)}

/-- The first lines. -/
theorem IsTable.leads_before {before rest : List (Str × Str × Toml.Value)} (h : IsTable table ps)
    (hlines : ps = before ++ rest) (hspells : ∀ p ∈ before, Spells p.2.1 p.2.2) :
    Leads (tableText table before) Toml.start
      ⟨(headed table).add (before.map fun p => (p.1, p.2.2)), .line⟩ := by
  have hsub : before.Sublist ps := hlines ▸ List.sublist_append_left _ _
  have hempty : ¬ (table ∈ ([] : List Str) ∨ Toml.start.doc.HasKey [] table) := by
    rintro (hmem | hhas)
    · cases hmem
    · cases hhas
  have hhead : Leads (str "[" ++ (table ++ str "]") ++ str "\n") Toml.start ⟨headed table, .line⟩ :=
    Leads.header h.name.1 h.name.2 (if_neg hempty)
  refine hhead.append (Leads.pairs (fun p hp => h.keys p (hsub.subset hp)) hspells
    (h.nodup.sublist (hsub.map _)) fun p _ hhas => ?_)
  cases hhas

theorem IsTable.read_eq (h : IsTable table ps) (hspells : ∀ p ∈ ps, Spells p.2.1 p.2.2) :
    Toml.read (tableText table ps) = some (meant table ps) := by
  have hdoc : (headed table).add (ps.map fun p => (p.1, p.2.2)) = meant table ps := by
    simp only [Toml.Document.add, meant, List.map_map]
    rfl
  rw [← hdoc]
  exact (h.leads_before (List.append_nil _).symm hspells).read_eq

/-- The value of a key of the document. -/
theorem IsTable.value_unique (h : IsTable table ps) {p : Str × Str × Toml.Value} (hp : p ∈ ps) {v : Toml.Value}
    (hmem : (table, p.1, v) ∈ (meant table ps).entries) : v = p.2.2 := by
  obtain ⟨q, hq, heq⟩ := List.mem_map.mp hmem
  rw [Prod.mk.injEq, Prod.mk.injEq] at heq
  have hpq : q = p := List.inj_on_of_nodup_map h.nodup hq hp heq.2.1
  rw [← heq.2.2, hpq]

/-- A string that is the value of a key. -/
theorem IsTable.basic_of_read (h : IsTable table ps) (before : List (Str × Str × Toml.Value))
    {rest : List (Str × Str × Toml.Value)} {key v : Str} (hlines : ps = before ++ (key, quoted v, .string v) :: rest)
    (hspells : ∀ p ∈ before, Spells p.2.1 p.2.2) (hread : Toml.read (tableText table ps) = some (meant table ps)) :
    Basic v := by
  have hmem : (key, quoted v, Toml.Value.string v) ∈ ps := by
    rw [hlines]
    exact List.mem_append_right _ List.mem_cons_self
  obtain ⟨hne, hbare⟩ := h.keys _ hmem
  have hleads := (h.leads_before hlines hspells).append (Leads.keyed hne hbare)
  have htext : tableText table ps = tableText table before ++ (key ++ str " " ++ str "= ") ++
      34 :: (v ++ 34 :: 10 :: unlines (rest.map settingLine)) := by
    have hline : unlines (settingLine (key, quoted v, .string v) :: rest.map settingLine) =
        key ++ str " " ++ str "= " ++ 34 :: (v ++ 34 :: 10 :: unlines (rest.map settingLine)) := by
      rw [unlines, List.flatMap_cons, settingLine, quoted_eq]
      simp only [List.append_assoc, List.cons_append]
      rfl
    rw [tableText, hlines, List.map_append, unlines_append, List.map_cons, hline, tableText]
    simp only [List.append_assoc]
  rw [htext] at hread
  obtain ⟨u, hu, hbasic | hshort⟩ := hleads.basic_of_value ⟨[], _, rfl, List.not_mem_nil, List.not_mem_nil⟩ hread
  · exact hbasic
  · have hv : Toml.Value.string u = .string v := h.value_unique hmem hu
    rw [Toml.Value.string.injEq] at hv
    rw [hv] at hshort
    exact absurd hshort (lt_irrefl _)

end Table

theorem read_of_basic (htransport : Basic t.transport.val) (htoken : Basic t.token.val)
    (hrules : ∀ rule ∈ rules, Basic rule) :
    Toml.read (tableText (str "server") (serverLines repr t rules)) = some (serverDocument t rules) := by
  refine isTable_server.read_eq ?_
  simp only [serverLines, List.forall_mem_cons]
  exact ⟨spells_bind _, Toml.spells_quoted htransport, Toml.spells_quoted htoken,
    spells_portsToml hrules, spells_trueFalse _, spells_trueFalse _, Toml.spells_decimal _, Toml.spells_decimal _,
    Toml.spells_quoted (by decide), Toml.spells_decimal _, Toml.spells_decimal _, List.forall_mem_nil _⟩

/-- The strings of the array, from the first to the last: what is read of one that is not basic is not the
string. -/
theorem basic_items {doc final : Toml.Document} {key rest : Str} :
    ∀ {done : List Toml.Value} {s : Str}, Leads s Toml.start ⟨doc, .value key [done]⟩ →
      Toml.read (s ++ (join (str ",\n") (rules.map itemLine) ++ 10 :: rest)) = some final →
        (∀ us, (doc.table, key, .array us) ∈ final.entries → us = done ++ rules.map .string) →
          ∀ rule ∈ rules, Basic rule := by
  induction rules with
  | nil => exact fun _ _ _ => List.forall_mem_nil _
  | cons rule rules ih =>
    intro done s hleads hread hfinal
    -- what comes after the rule ends the line
    obtain ⟨tail, hend, hjoin⟩ : ∃ tail, EndsLine tail ∧ join (str ",\n") ((rule :: rules).map itemLine) ++ 10 :: rest =
        str "  " ++ 34 :: (rule ++ 34 :: tail) := by
      cases rules with
      | nil =>
        refine ⟨10 :: rest, ⟨[], rest, rfl, List.not_mem_nil, List.not_mem_nil⟩, ?_⟩
        show str "  " ++ quoted rule ++ 10 :: rest = _
        rw [quoted_eq]
        simp only [List.append_assoc, List.cons_append, List.nil_append]
      | cons rule' rules =>
        refine ⟨str "," ++ 10 :: (join (str ",\n") ((rule' :: rules).map itemLine) ++ 10 :: rest),
          ⟨str ",", _, rfl, by decide, by decide⟩, ?_⟩
        show str "  " ++ quoted rule ++ str ",\n" ++ join (str ",\n") ((rule' :: rules).map itemLine) ++ 10 :: rest = _
        rw [quoted_eq]
        simp only [List.append_assoc, List.cons_append]
        rfl
    have hspaces : Leads (str "  ") ⟨doc, .value key [done]⟩ ⟨doc, .value key [done]⟩ := .marks (by decide) rfl
    have hitem : Basic rule := by
      rw [hjoin, ← List.append_assoc] at hread
      obtain ⟨u, us, hus, hbegins, hbasic | hshort⟩ := (hleads.append hspaces).basic_of_item hend hread
      · exact hbasic
      · rw [hfinal us hus, List.map_cons, List.prefix_append_right_inj, List.cons_prefix_cons,
          Toml.Value.string.injEq] at hbegins
        rw [hbegins.1] at hshort
        exact absurd hshort (lt_irrefl _)
    refine List.forall_mem_cons.mpr ⟨hitem, ?_⟩
    cases rules with
    | nil => exact List.forall_mem_nil _
    | cons rule' rules =>
      have hcomma : Leads (str ",\n") ⟨doc, .item key [done ++ [.string rule]]⟩
          ⟨doc, .value key [done ++ [.string rule]]⟩ := .marks (by decide) rfl
      refine ih ((hleads.append (leads_item hitem)).append hcomma) ?_ fun us hus => ?_
      · rw [← hread, List.append_assoc, List.append_assoc, ← List.append_assoc (str ",\n"),
          ← List.append_assoc (itemLine rule), ← List.append_assoc (itemLine rule)]
        rfl
      · rw [hfinal us hus, List.append_assoc]
        rfl

/-- The strings of an array that is the value of a key. -/
theorem basic_rules_of_read {table : Str} {ps : List (Str × Str × Toml.Value)} (h : IsTable table ps)
    (before : List (Str × Str × Toml.Value)) {rest : List (Str × Str × Toml.Value)} {key : Str}
    (hlines : ps = before ++ (key, portsToml repr (rules.map .str), .array (rules.map .string)) :: rest)
    (hspells : ∀ p ∈ before, Spells p.2.1 p.2.2) (hread : Toml.read (tableText table ps) = some (meant table ps)) :
    ∀ rule ∈ rules, Basic rule := by
  have hmem : (key, portsToml repr (rules.map .str), Toml.Value.array (rules.map .string)) ∈ ps := by
    rw [hlines]
    exact List.mem_append_right _ List.mem_cons_self
  obtain ⟨hne, hbare⟩ := h.keys _ hmem
  have hopen : Leads (str "[\n") ⟨(headed table).add (before.map fun p => (p.1, p.2.2)), .value key []⟩
      ⟨(headed table).add (before.map fun p => (p.1, p.2.2)), .value key [[]]⟩ := .marks (by decide) rfl
  have hleads := ((h.leads_before hlines hspells).append (Leads.keyed hne hbare)).append hopen
  have hitems : (rules.map Json.str).map (fun p => str "  " ++ quoted (p.shown repr)) = rules.map itemLine :=
    List.map_map
  have htext : tableText table ps = tableText table before ++ (key ++ str " " ++ str "= ") ++ str "[\n" ++
      (join (str ",\n") (rules.map itemLine) ++ 10 :: (str "]\n" ++ unlines (rest.map settingLine))) := by
    have hline : unlines (settingLine (key, portsToml repr (rules.map .str), .array (rules.map .string)) ::
        rest.map settingLine) = key ++ str " " ++ str "= " ++ str "[\n" ++
          (join (str ",\n") (rules.map itemLine) ++ 10 :: (str "]\n" ++ unlines (rest.map settingLine))) := by
      rw [unlines, List.flatMap_cons, settingLine, portsToml, hitems]
      simp only [List.append_assoc]
      rfl
    rw [tableText, hlines, List.map_append, unlines_append, List.map_cons, hline, tableText]
    simp only [List.append_assoc]
  rw [htext] at hread
  refine basic_items hleads hread fun us hus => ?_
  have hus : Toml.Value.array us = .array (rules.map .string) := h.value_unique hmem hus
  rw [Toml.Value.array.injEq] at hus
  exact hus

/-- **When the text holds the settings**: exactly when every string in it is basic. -/
theorem read_generateServerConfig_iff (repr : Json → Str) (t : Tunnel) (rules : List Str)
    (hports : t.ports = .list (rules.map .str)) :
    (generateServerConfig repr t).bind Toml.read = some (serverDocument t rules) ↔
      Basic t.transport.val ∧ Basic t.token.val ∧ ∀ rule ∈ rules, Basic rule := by
  rw [generateServerConfig_eq hports, Option.bind_some]
  constructor
  · intro hread
    have htransport : Basic t.transport.val :=
      isTable_server.basic_of_read [_] rfl (List.forall_mem_singleton.mpr (spells_bind _)) hread
    have htoken : Basic t.token.val :=
      isTable_server.basic_of_read [_, _] rfl
        (List.forall_mem_cons.mpr ⟨spells_bind _, List.forall_mem_singleton.mpr (Toml.spells_quoted htransport)⟩) hread
    refine ⟨htransport, htoken, basic_rules_of_read isTable_server [_, _, _] rfl ?_ hread⟩
    exact List.forall_mem_cons.mpr ⟨spells_bind _, List.forall_mem_cons.mpr
      ⟨Toml.spells_quoted htransport, List.forall_mem_singleton.mpr (Toml.spells_quoted htoken)⟩⟩
  · rintro ⟨htransport, htoken, hrules⟩
    exact read_of_basic htransport htoken hrules

/-- **When the client's text holds the settings.** -/
theorem read_generateClientConfig_iff (t : Tunnel) (serverIp : Str) :
    Toml.read (generateClientConfig t serverIp) = some (clientDocument t serverIp) ↔
      Basic serverIp ∧ Basic t.transport.val ∧ Basic t.token.val := by
  rw [generateClientConfig_eq]
  constructor
  · intro hread
    have haddr : Basic (hostPort serverIp t.corePort) :=
      isTable_client.basic_of_read [] rfl (List.forall_mem_nil _) hread
    have htransport : Basic t.transport.val :=
      isTable_client.basic_of_read [_] rfl (List.forall_mem_singleton.mpr (Toml.spells_quoted haddr)) hread
    have htoken : Basic t.token.val :=
      isTable_client.basic_of_read [_, _] rfl (List.forall_mem_cons.mpr
        ⟨Toml.spells_quoted haddr, List.forall_mem_singleton.mpr (Toml.spells_quoted htransport)⟩) hread
    exact ⟨(basic_hostPort _).mp haddr, htransport, htoken⟩
  · rintro ⟨hip, htransport, htoken⟩
    refine isTable_client.read_eq ?_
    simp only [clientLines, List.forall_mem_cons]
    exact ⟨Toml.spells_quoted ((basic_hostPort _).mpr hip), Toml.spells_quoted htransport, Toml.spells_quoted htoken,
      Toml.spells_decimal _, Toml.spells_decimal _, spells_trueFalse _, spells_trueFalse _, Toml.spells_decimal _,
      Toml.spells_quoted (by decide), Toml.spells_decimal _, Toml.spells_decimal _, List.forall_mem_nil _⟩

/-- A row with a carrier and rules. -/
def rowWith (transport : Text) (rules : List Str) : Tunnel :=
  { id := text "tun_1", name := text "t", coreType := text "backhaul"
    serverNodeId := text "node_a", clientNodeId := text "node_b", corePort := 3080
    transport := transport, ports := .list (rules.map .str), token := tokenHex 32 7
    status := text "running", nodelay := 1, snappy := 1, muxCon := 8, keepalive := 75
    channelSize := 2048, restartNonce := 0, bytesIn := .integer 0, bytesOut := .integer 0 }

theorem two_rules_read :
    (generateServerConfig (fun _ => []) (rowWith (text "ws") [str "443=127.0.0.1:443", str "80"])).bind Toml.read =
      some (serverDocument (rowWith (text "ws") [str "443=127.0.0.1:443", str "80"])
        [str "443=127.0.0.1:443", str "80"]) :=
  (read_generateServerConfig_iff _ _ _ rfl).mpr ⟨by decide, basic_tokenHex _ _, by decide⟩

/-- A rule with quotation marks and a line break: the text is read, with a key that no setting has. -/
theorem key_injected :
    ∃ doc, (generateServerConfig (fun _ => []) (rowWith (text "ws") [str "80\"]\nextra = [\"443"])).bind Toml.read =
        some doc ∧
      doc.HasKey (str "server") (str "extra") ∧
        ¬ (serverDocument (rowWith (text "ws") [str "80\"]\nextra = [\"443"]) [str "80\"]\nextra = [\"443"]).HasKey
          (str "server") (str "extra") :=
  exists_of_any (by decide +kernel)

end Hawal.Panel.BackhaulToml
