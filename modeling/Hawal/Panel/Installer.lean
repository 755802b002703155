import Hawal.Lib.JsonStrings
import Hawal.Lib.Shell

/-!
# The installer of a node

`serve_node_installer` puts a token, the address of the panel, a role and a name into a script for bash:
each between double quotes in an assignment, two of them in a line that is printed. Later the script
writes them, out of the variables, into a JSON file.

* `serveNodeInstaller` — the script that is returned for a request.
* `AsData` — the script is read as it is meant, whatever the four are, and the file holds them.
* `serveNodeInstaller_asData_iff` — the four for which it is (`Harmless`).

What `str.upper` does to a role is a parameter, of which it is known what characters it puts in (`Casing`).
The here-document is looked at as it would be expanded; without a token the script ends before it.
-/

namespace Hawal.Panel.Installer

open Hawal.Lib Hawal.Lib.Python

open Shell (Command Unquoted literal readCommands expandHere hereDocument environment)

/-! ### The script -/

/-- `str.upper`. -/
structure Casing where
  upper : Str → Str
  /-- What it puts in are capital letters of ASCII and characters beyond ASCII. -/
  mem_upper : ∀ s, ∀ c ∈ upper s, c ∈ s ∨ (65 ≤ c ∧ c ≤ 90) ∨ (128 ≤ c ∧ ¬ (0xD800 ≤ c ∧ c < 0xE000))

/-- What `parse_qs` has for a name: at least one value. -/
structure Values where
  first : Str
  others : List Str

/-- `query.get(name, [default])[0]`. -/
def firstValue (query : List (Str × Values)) (name : String) (default : Str) : Str :=
  ((Dict.get id query (str name)).map Values.first).getD default

/-- `panel_url`; `none` when the setting is no string. -/
def panelUrl (settings : Fields) (port : ℤ) (headers : List (Str × Str)) : Option Str :=
  match settings.get "public_panel_url" (.str []) with
  | .str url =>
    let configured := (strip url).rdropWhile fun c => c == '/'.toNat
    let host := (Dict.get id headers (str "host")).getD (str "127.0.0.1:" ++ decimal port)
    some (if configured = [] then str "http://" ++ host else configured)
  | _ => none

/-- What is put into the script. -/
structure Parameters where
  token : Str
  panelUrl : Str
  role : Str
  name : Str

/-- The parameters of a request. -/
def parameters (settings : Fields) (port : ℤ) (query : List (Str × Values)) (headers : List (Str × Str)) :
    Option Parameters :=
  (panelUrl settings port headers).map fun url =>
    { token := firstValue query "token" []
      panelUrl := url
      role := firstValue query "role" (str "kharej")
      name := firstValue query "name" (str "Auto Node") }

variable (K : Casing) (p : Parameters)

/-- The lines of the script up to the assignments. -/
def scriptHead : List Str :=
  [str "#!/usr/bin/env bash",
    str "set -e",
    [],
    str "echo \"🚀 ===============================================\"",
    str "echo \"⚡ Hawal Tunnel (هه\u200cواڵ) - Automated Node Installer\"",
    str "echo \"🌐 Node Role: " ++ K.upper p.role ++ str " | Panel: " ++ p.panelUrl ++ str "\"",
    str "echo \"===============================================\"",
    [],
    str "TOKEN=\"" ++ p.token ++ str "\"",
    str "PANEL_URL=\"" ++ p.panelUrl ++ str "\"",
    str "ROLE=\"" ++ p.role ++ str "\"",
    str "NAME=\"" ++ p.name ++ str "\""]

/-- The lines after them, where nothing is put in. -/
def scriptRest : List Str :=
  [[],
    str "if [ -z \"$TOKEN\" ]; then",
    str "  echo \"❌ Error: Node token is missing.\"",
    str "  exit 1",
    str "fi",
    [],
    str "mkdir -p /opt/hawal /etc/hawal",
    [],
    str "echo \"📥 Downloading Backhaul High-Performance Tunnel Core...\"",
    str "ARCH=$(uname -m)",
    str "case \"$ARCH\" in",
    str "  x86_64)  BH_URL=\"https://github.com/Musixal/Backhaul/releases/latest/download/" ++
      str "backhaul_linux_amd64.tar.gz\" ;;",
    str "  aarch64) BH_URL=\"https://github.com/Musixal/Backhaul/releases/latest/download/" ++
      str "backhaul_linux_arm64.tar.gz\" ;;",
    str "  *) echo \"Unsupported architecture: $ARCH\"; exit 1 ;;",
    str "esac",
    [],
    str "curl -sL \"$BH_URL\" -o /tmp/backhaul.tar.gz",
    str "tar -xzf /tmp/backhaul.tar.gz -C /usr/local/bin/ backhaul",
    str "chmod +x /usr/local/bin/backhaul",
    str "rm -f /tmp/backhaul.tar.gz",
    [],
    str "echo \"📥 Installing Hawal Node Agent Daemon...\"",
    str "curl -sL \"$\x7bPANEL_URL\x7d/static/js/agent.py\" -o /opt/hawal/agent.py",
    str "chmod +x /opt/hawal/agent.py",
    [],
    str "# Write agent config",
    str "cat > /etc/hawal/agent.json << EOF",
    str "\x7b",
    str "  \"panel_url\": \"$\x7bPANEL_URL\x7d\",",
    str "  \"token\": \"$\x7bTOKEN\x7d\",",
    str "  \"role\": \"$\x7bROLE\x7d\",",
    str "  \"name\": \"$\x7bNAME\x7d\"",
    str "\x7d",
    str "EOF",
    [],
    str "# Write Systemd Service",
    str "cat > /etc/systemd/system/hawal-agent.service << EOF",
    str "[Unit]",
    str "Description=Hawal Tunnel Node Agent Daemon",
    str "After=network.target",
    [],
    str "[Service]",
    str "Type=simple",
    str "User=root",
    str "WorkingDirectory=/opt/hawal",
    str "ExecStart=/usr/bin/python3 /opt/hawal/agent.py",
    str "Restart=always",
    str "RestartSec=3",
    [],
    str "[Install]",
    str "WantedBy=multi-user.target",
    str "EOF",
    [],
    str "systemctl daemon-reload",
    str "systemctl enable hawal-agent",
    str "systemctl restart hawal-agent",
    [],
    str "echo \"✅ Hawal Node (هه\u200cواڵ) successfully connected and active in Panel!\""]

/-- `script`. -/
def script : Str := unlines (scriptHead K p ++ scriptRest)

/-- `serve_node_installer`: the script in the response; `none` when it raises, as it does for what UTF-8 has
no bytes for. -/
def serveNodeInstaller (settings : Fields) (port : ℤ) (query : List (Str × Values)) (headers : List (Str × Str)) :
    Option Str :=
  (parameters settings port query headers).bind fun p =>
    if Encodable (script K p) then some (script K p) else none

/-! ### What it is meant to do -/

/-- The commands at the head of the script. -/
def headCommands : List Command :=
  [.run [str "set", str "-e"],
    .run [str "echo", str "🚀 ==============================================="],
    .run [str "echo", str "⚡ Hawal Tunnel (هه\u200cواڵ) - Automated Node Installer"],
    .run [str "echo", str "🌐 Node Role: " ++ K.upper p.role ++ str " | Panel: " ++ p.panelUrl],
    .run [str "echo", str "==============================================="],
    .assign (str "TOKEN") p.token,
    .assign (str "PANEL_URL") p.panelUrl,
    .assign (str "ROLE") p.role,
    .assign (str "NAME") p.name]

/-- The here-document in the rest of the script. -/
def agentJson : Str :=
  unlines (hereDocument (str "cat > /etc/hawal/agent.json << EOF") (str "EOF") scriptRest)

/-- **The parameters are data**: the head of the script is read as these commands, with nothing substituted,
and the rest is left as it stands; and the file that the here-document makes of the variables is read as a
dict with the four strings. -/
def AsData (R : FloatReader) (s : Str) : Prop :=
  ∃ (content : Str) (fields : Fields), readCommands 9 s = some (headCommands K p, unlines scriptRest) ∧
    expandHere (environment (headCommands K p)) .text agentJson = some content ∧
      loads R content = some (.dict fields) ∧ fields.get "token" .null = .str p.token ∧
        fields.get "panel_url" .null = .str p.panelUrl ∧ fields.get "role" .null = .str p.role ∧
          fields.get "name" .null = .str p.name

/-- The strings that are put in. -/
def Parameters.all : List Str := [p.panelUrl, p.token, p.role, p.name]

/-- **What can be put in.** -/
structure Harmless : Prop where
  /-- UTF-8 has bytes for it. -/
  encodable : ∀ v ∈ p.all, Encodable v
  /-- No quotation mark, no backslash and no control character. -/
  plain : ∀ v ∈ p.all, Plain v
  /-- No backquote, and no dollar sign before what begins an expansion. -/
  literal : ∀ v ∈ p.all, literal v = true
  /-- Neither when the role is printed. -/
  literal_upper : Shell.literal (K.upper p.role) = true

variable {K p}

/-! ### The head of the script -/

/-- What is printed of the role and the address. -/
def roleText (K : Casing) (p : Parameters) : Str :=
  str "🌐 Node Role: " ++ K.upper p.role ++ str " | Panel: " ++ p.panelUrl

theorem literal_roleText : literal (roleText K p) = (literal (K.upper p.role) && literal p.panelUrl) := by
  have hfront : literal (str "🌐 Node Role: ") = true := by decide
  have hmiddle : literal (str " | Panel: ") = true := by decide
  rw [roleText, List.append_assoc, List.append_assoc, Shell.literal_append, hfront, Bool.true_and,
    Shell.literal_append, Shell.literal_append, hmiddle, Bool.true_and]
  · intro _
    decide
  · intro h
    cases h
  · intro _
    decide

theorem unquoted_of_plain {v : Str} (h : Plain v) : Unquoted v := fun c hc => (h c hc).2

/-- The capital letters of what is plain. -/
theorem unquoted_upper (h : Plain p.role) : Unquoted (K.upper p.role) := by
  intro c hc
  rcases K.mem_upper _ c hc with hc | hc | hc
  · exact (h c hc).2
  · omega
  · omega

theorem unquoted_roleText (hrole : Plain p.role) (hurl : Plain p.panelUrl) : Unquoted (roleText K p) := by
  have hfront : Unquoted (str "🌐 Node Role: ") := by decide
  have hmiddle : Unquoted (str " | Panel: ") := by decide
  refine List.forall_mem_append.mpr ⟨List.forall_mem_append.mpr ⟨List.forall_mem_append.mpr ⟨hfront, ?_⟩, hmiddle⟩, ?_⟩
  · exact unquoted_upper hrole
  · exact unquoted_of_plain hurl

/-- The lines that hold text between double quotes. -/
theorem scriptHead_eq : scriptHead K p =
    [str "#!/usr/bin/env bash", str "set -e", [],
      Shell.quotedLine (str "echo") (str "🚀 ==============================================="),
      Shell.quotedLine (str "echo") (str "⚡ Hawal Tunnel (هه\u200cواڵ) - Automated Node Installer"),
      Shell.quotedLine (str "echo") (roleText K p),
      Shell.quotedLine (str "echo") (str "==============================================="),
      [],
      Shell.assignLine (str "TOKEN") p.token,
      Shell.assignLine (str "PANEL_URL") p.panelUrl,
      Shell.assignLine (str "ROLE") p.role,
      Shell.assignLine (str "NAME") p.name] := by
  have hecho : str "echo \"🌐 Node Role: " = str "echo" ++ 32 :: 34 :: str "🌐 Node Role: " := by decide
  have htoken : str "TOKEN=\"" = str "TOKEN" ++ [61, 34] := by decide
  have hurl : str "PANEL_URL=\"" = str "PANEL_URL" ++ [61, 34] := by decide
  have hrole : str "ROLE=\"" = str "ROLE" ++ [61, 34] := by decide
  have hname : str "NAME=\"" = str "NAME" ++ [61, 34] := by decide
  have hquote : str "\"" = [34] := by decide
  have hbanner : str "echo \"🚀 ===============================================\"" =
      Shell.quotedLine (str "echo") (str "🚀 ===============================================") := by decide
  have htitle : str "echo \"⚡ Hawal Tunnel (هه\u200cواڵ) - Automated Node Installer\"" =
      Shell.quotedLine (str "echo") (str "⚡ Hawal Tunnel (هه\u200cواڵ) - Automated Node Installer") := by decide
  have hrule : str "echo \"===============================================\"" =
      Shell.quotedLine (str "echo") (str "===============================================") := by decide
  rw [scriptHead, hbanner, htitle, hrule, hecho, htoken, hurl, hrole, hname, hquote]
  simp only [Shell.quotedLine, Shell.assignLine, roleText, List.append_assoc, List.cons_append, List.nil_append]

theorem unlines_cons_append (l : Str) (ls : List Str) (s : Str) :
    unlines (l :: ls) ++ s = l ++ 10 :: (unlines ls ++ s) := by
  have hline : str "\n" = [10] := by decide
  show l ++ str "\n" ++ unlines ls ++ s = _
  rw [hline, List.append_assoc, List.append_assoc]
  rfl

theorem unlines_nil_append (s : Str) : unlines [] ++ s = s := rfl

/-- The lines before the first that prints something. -/
theorem readCommands_set (n : ℕ) (s : Str) :
    readCommands (n + 2) (str "#!/usr/bin/env bash" ++ 10 :: (str "set -e" ++ 10 :: ([] ++ 10 :: s))) =
      (readCommands (n + 1) s).map fun r => (.run [str "set", str "-e"] :: r.1, r.2) := by
  have hcomment : str "#!/usr/bin/env bash" = 35 :: str "!/usr/bin/env bash" := by decide
  have hset : str "set -e" = [115, 101, 116, 32, 45, 101] := by decide
  rw [hcomment, hset, readCommands, Shell.skip_comment (by decide)]
  rfl

/-- Two conditions, the second of which is looked at under the first. -/
theorem ite_map_ite {α β : Type} {a b : Prop} [Decidable a] [Decidable b] (f : α → β) (x : Option α) :
    (if a then (if b then x else none).map f else none) = if a ∧ b then x.map f else none := by
  by_cases ha : a <;> by_cases hb : b <;> simp [ha, hb]

/-- **The head of the script**, when what is put in has no quotation marks and no backslashes. -/
theorem readCommands_script (h : ∀ v ∈ p.all, Plain v) :
    readCommands 9 (script K p) =
      if literal (roleText K p) = true ∧ ∀ v ∈ p.all, literal v = true then
        some (headCommands K p, unlines scriptRest)
      else none := by
  have hurl : Plain p.panelUrl := h _ (by simp [Parameters.all])
  have htoken : Plain p.token := h _ (by simp [Parameters.all])
  have hrole : Plain p.role := h _ (by simp [Parameters.all])
  have hname : Plain p.name := h _ (by simp [Parameters.all])
  have hecho : str "echo" ≠ [] ∧ ∀ c ∈ str "echo", Shell.isNameChar c = true := by decide
  have hbanner : Unquoted (str "🚀 ===============================================") ∧
      literal (str "🚀 ===============================================") = true := by decide
  have htitle : Unquoted (str "⚡ Hawal Tunnel (هه\u200cواڵ) - Automated Node Installer") ∧
      literal (str "⚡ Hawal Tunnel (هه\u200cواڵ) - Automated Node Installer") = true := by decide
  have hrule : Unquoted (str "===============================================") ∧
      literal (str "===============================================") = true := by decide
  have hempty : ∀ n s, readCommands (n + 1) ([] ++ 10 :: s) = readCommands (n + 1) s := fun _ _ => rfl
  rw [script, unlines_append, scriptHead_eq]
  generalize unlines scriptRest = rest
  rw [unlines_cons_append, unlines_cons_append, unlines_cons_append, readCommands_set, unlines_cons_append,
    Shell.readCommands_run hecho.1 hecho.2 hbanner.1, if_pos hbanner.2, unlines_cons_append,
    Shell.readCommands_run hecho.1 hecho.2 htitle.1, if_pos htitle.2, unlines_cons_append,
    Shell.readCommands_run hecho.1 hecho.2 (unquoted_roleText hrole hurl), unlines_cons_append,
    Shell.readCommands_run hecho.1 hecho.2 hrule.1, if_pos hrule.2, unlines_cons_append, hempty, unlines_cons_append,
    Shell.readCommands_assign (by decide) (by decide) (unquoted_of_plain htoken), unlines_cons_append,
    Shell.readCommands_assign (by decide) (by decide) (unquoted_of_plain hurl), unlines_cons_append,
    Shell.readCommands_assign (by decide) (by decide) (unquoted_of_plain hrole), unlines_cons_append,
    Shell.readCommands_assign (by decide) (by decide) (unquoted_of_plain hname)]
  -- one condition for all the lines
  have hall : (literal (roleText K p) = true ∧ literal p.token = true ∧ literal p.panelUrl = true ∧
      literal p.role = true ∧ literal p.name = true) ↔
        literal (roleText K p) = true ∧ ∀ v ∈ p.all, literal v = true := by
    simp only [Parameters.all, List.forall_mem_cons, List.not_mem_nil, false_implies, implies_true, and_true]
    exact and_congr_right fun _ => and_left_comm
  simp only [Option.map_map, ite_map_ite, hall]
  by_cases hread : literal (roleText K p) = true ∧ ∀ v ∈ p.all, literal v = true
  · rw [if_pos hread, if_pos hread, unlines_nil_append, Shell.readCommands]
    simp only [Option.map_some, Function.comp_apply, headCommands, roleText]
  · rw [if_neg hread, if_neg hread, Option.map_none]

/-! ### The file -/

/-- The texts that open a quotation mark for a value of the file, and the values. -/
def fileFields (p : Parameters) : List (Str × Str) :=
  [(str "\x7b\n  \"panel_url\": \"", p.panelUrl), (str ",\n  \"token\": \"", p.token),
    (str ",\n  \"role\": \"", p.role), (str ",\n  \"name\": \"", p.name)]

/-- The end of the file. -/
def fileEnd : Str := str "\n\x7d\n"

/-- The here-document. -/
theorem agentJson_eq : agentJson =
    str "\x7b\n  \"panel_url\": \"" ++ 36 :: 123 :: (str "PANEL_URL" ++ 125 :: (34 :: str ",\n  \"token\": \"" ++
      36 :: 123 :: (str "TOKEN" ++ 125 :: (34 :: str ",\n  \"role\": \"" ++ 36 :: 123 :: (str "ROLE" ++ 125 ::
        (34 :: str ",\n  \"name\": \"" ++ 36 :: 123 :: (str "NAME" ++ 125 :: (34 :: fileEnd ++ [])))))))) := by
  decide

/-- **The file that is written.** -/
theorem expandHere_agentJson :
    expandHere (environment (headCommands K p)) .text agentJson = some (pasted (fileFields p) fileEnd) := by
  have hurl : environment (headCommands K p) (str "PANEL_URL") = p.panelUrl := rfl
  have htoken : environment (headCommands K p) (str "TOKEN") = p.token := rfl
  have hrole : environment (headCommands K p) (str "ROLE") = p.role := rfl
  have hname : environment (headCommands K p) (str "NAME") = p.name := rfl
  generalize environment (headCommands K p) = env at *
  rw [agentJson_eq, Shell.expandHere_text _ (by decide), Shell.expandHere_variable _ (by decide) (by decide), hurl,
    Shell.expandHere_text _ (by decide), Shell.expandHere_variable _ (by decide) (by decide), htoken,
    Shell.expandHere_text _ (by decide), Shell.expandHere_variable _ (by decide) (by decide), hrole,
    Shell.expandHere_text _ (by decide), Shell.expandHere_variable _ (by decide) (by decide), hname,
    Shell.expandHere_text _ (by decide)]
  simp only [Shell.expandHere, Option.map_some, pasted, fileFields, List.cons_append, List.append_nil]

/-- What the texts before the values are read as. -/
theorem opens_fronts (R : FloatReader) :
    Opens R (str "\x7b\n  \"panel_url\": \"") [.lbrace, .scalar (.str (str "panel_url")), .colon] ∧
      Opens R (str ",\n  \"token\": \"") [.comma, .scalar (.str (str "token")), .colon] ∧
        Opens R (str ",\n  \"role\": \"") [.comma, .scalar (.str (str "role")), .colon] ∧
          Opens R (str ",\n  \"name\": \"") [.comma, .scalar (.str (str "name")), .colon] := by
  refine ⟨rfl, rfl, rfl, rfl⟩

theorem lexRun_fileEnd (R : FloatReader) : lexRun R .idle fileEnd = some (.idle, [.rbrace]) := rfl

/-- What the file is meant to hold. -/
def agentFields (p : Parameters) : Fields :=
  [(str "panel_url", .str p.panelUrl), (str "token", .str p.token), (str "role", .str p.role),
    (str "name", .str p.name)]

theorem loads_file (R : FloatReader) (hencodable : ∀ v ∈ p.all, Encodable v) (hplain : ∀ v ∈ p.all, Plain v) :
    loads R (pasted (fileFields p) fileEnd) = some (.dict (agentFields p)) := by
  obtain ⟨hurl, htoken, hrole, hname⟩ := opens_fronts R
  simp only [Parameters.all, List.forall_mem_cons] at hencodable hplain
  have hlex : lexRun R .idle (pasted (fileFields p) fileEnd) = some (.idle,
      [.lbrace, .scalar (.str (str "panel_url")), .colon, .scalar (.str p.panelUrl),
        .comma, .scalar (.str (str "token")), .colon, .scalar (.str p.token),
        .comma, .scalar (.str (str "role")), .colon, .scalar (.str p.role),
        .comma, .scalar (.str (str "name")), .colon, .scalar (.str p.name), .rbrace]) := by
    rw [fileFields, pasted, hurl.lexRun hplain.1 hencodable.1, pasted, htoken.lexRun hplain.2.1 hencodable.2.1, pasted,
      hrole.lexRun hplain.2.2.1 hencodable.2.2.1, pasted, hname.lexRun hplain.2.2.2.1 hencodable.2.2.2.1, pasted,
      lexRun_fileEnd]
    rfl
  rw [loads, lex, hlex]
  rfl

theorem map_fileFields : (fileFields p).map Prod.snd = p.all := rfl

theorem mem_of_get {fields : Fields} {k : String} {s : Str} (h : fields.get k .null = .str s) :
    ∃ k, (k, Json.str s) ∈ fields := by
  unfold Fields.get at h
  cases hfind : fields.find? fun f => decide (f.1 = str k) with
  | none =>
    rw [hfind] at h
    cases h
  | some f =>
    rw [hfind] at h
    have hf : f.2 = .str s := h
    exact ⟨f.1, hf ▸ List.mem_of_find?_eq_some hfind⟩

/-- The strings come back out of the file only when they are plain. -/
theorem plain_of_file {fields : Fields} (hencodable : ∀ v ∈ p.all, Encodable v)
    (h : loads R (pasted (fileFields p) fileEnd) = some (.dict fields))
    (htoken : fields.get "token" .null = .str p.token) (hurl : fields.get "panel_url" .null = .str p.panelUrl)
    (hrole : fields.get "role" .null = .str p.role) (hname : fields.get "name" .null = .str p.name) :
    ∀ v ∈ p.all, Plain v := by
  have hkey : ∀ {k : String}, Plain (str k) → ∀ {t : Token}, (∀ v, t ≠ .scalar v) →
      ∀ t' ∈ [t, .scalar (.str (str k)), .colon], t'.In Plain := by
    intro k hk t ht
    refine List.forall_mem_cons.mpr ⟨fun v hv => absurd hv (ht v), List.forall_mem_cons.mpr ⟨Token.in_str hk, ?_⟩⟩
    exact List.forall_mem_singleton.mpr nofun
  have hend : GoesOn fileEnd := ⟨[], [125, 10], by decide, List.forall_mem_nil _⟩
  have hendTokens : ∀ st ts, lexRun R .idle fileEnd = some (st, ts) → ∀ S, ∀ t ∈ ts, t.In S := by
    intro st ts hrun S
    rw [lexRun_fileEnd] at hrun
    cases hrun
    exact List.forall_mem_singleton.mpr nofun
  have hback : ∀ f ∈ fileFields p, ∃ k, (k, Json.str f.2) ∈ fields := by
    simp only [fileFields, List.forall_mem_cons]
    exact ⟨mem_of_get hurl, mem_of_get htoken, mem_of_get hrole, mem_of_get hname, List.forall_mem_nil _⟩
  have hvalues : ∀ f ∈ fileFields p, Encodable f.2 := fun f hf =>
    hencodable f.2 (map_fileFields (p := p) ▸ List.mem_map_of_mem hf)
  obtain ⟨hopenUrl, hopenToken, hopenRole, hopenName⟩ := opens_fronts R
  have hfronts : ∀ f ∈ fileFields p, GoesOn f.1 ∧ ∃ ts, Opens R f.1 ts ∧ ∀ t ∈ ts, t.In Plain := by
    simp only [fileFields, List.forall_mem_cons]
    refine ⟨⟨⟨[123], str "  \"panel_url\": \"", by decide, by decide⟩, _, hopenUrl, hkey (by decide) nofun⟩,
      ⟨⟨[44], str "  \"token\": \"", by decide, by decide⟩, _, hopenToken, hkey (by decide) nofun⟩,
      ⟨⟨[44], str "  \"role\": \"", by decide, by decide⟩, _, hopenRole, hkey (by decide) nofun⟩,
      ⟨⟨[44], str "  \"name\": \"", by decide, by decide⟩, _, hopenName, hkey (by decide) nofun⟩, List.forall_mem_nil _⟩
  rw [← map_fileFields]
  exact List.forall_mem_map.mpr (plain_of_loads hend hendTokens hfronts hvalues h hback)

/-! ### What can be put in -/

theorem encodable_upper (h : Encodable p.role) : Encodable (K.upper p.role) := by
  intro c hc
  rcases K.mem_upper _ c hc with hc | hc | hc
  · exact h c hc
  · omega
  · exact hc.2

theorem encodable_unlines {ls : List Str} : Encodable (unlines ls) ↔ ∀ l ∈ ls, Encodable l := by
  induction ls with
  | nil => exact iff_of_true (List.forall_mem_nil _) (List.forall_mem_nil _)
  | cons l ls ih =>
    have hcons : unlines (l :: ls) = l ++ str "\n" ++ unlines ls := rfl
    rw [hcons, encodable_append, encodable_append, ih, List.forall_mem_cons]
    exact and_congr_left fun _ => and_iff_left (encodable_str _)

/-- UTF-8 has bytes for the script when it has for what is put in. -/
theorem encodable_script : Encodable (script K p) ↔ ∀ v ∈ p.all, Encodable v := by
  have hnil : Encodable [] := List.forall_mem_nil _
  rw [script, encodable_unlines, List.forall_mem_append]
  simp only [scriptHead, scriptRest, Parameters.all, List.forall_mem_cons, encodable_append, encodable_str, hnil,
    true_and, and_true]
  constructor
  · rintro ⟨⟨⟨-, hurl⟩, htoken, -, hrole, hname, hnone⟩, -⟩
    exact ⟨hurl, htoken, hrole, hname, hnone⟩
  · rintro ⟨hurl, htoken, hrole, hname, hnone⟩
    exact ⟨⟨⟨encodable_upper hrole, hurl⟩, htoken, hurl, hrole, hname, hnone⟩, hnone⟩

theorem harmless_of_asData (hencodable : ∀ v ∈ p.all, Encodable v) (h : AsData K p R (script K p)) : Harmless K p := by
  obtain ⟨content, fields, hread, hexpand, hloads, htoken, hurl, hrole, hname⟩ := h
  rw [expandHere_agentJson, Option.some.injEq] at hexpand
  subst hexpand
  -- the file first: what it gives back has no special characters but the dollar sign and the backquote
  have hplain := plain_of_file hencodable hloads htoken hurl hrole hname
  rw [readCommands_script hplain] at hread
  by_cases hlit : literal (roleText K p) = true ∧ ∀ v ∈ p.all, literal v = true
  · rw [literal_roleText, Bool.and_eq_true] at hlit
    exact ⟨hencodable, hplain, hlit.2, hlit.1.1⟩
  · rw [if_neg hlit] at hread
    cases hread

theorem asData_of_harmless (R : FloatReader) (h : Harmless K p) : AsData K p R (script K p) := by
  have hurl : literal p.panelUrl = true := h.literal _ List.mem_cons_self
  have hlit : literal (roleText K p) = true := by
    rw [literal_roleText, h.literal_upper, hurl]
    rfl
  refine ⟨_, _, ?_, expandHere_agentJson, loads_file R h.encodable h.plain, rfl, rfl, rfl, rfl⟩
  rw [readCommands_script h.plain, if_pos ⟨hlit, h.literal⟩]

/-- **For which requests the installer treats its parameters as data**: exactly those whose parameters can be
put in. -/
theorem serveNodeInstaller_asData_iff (K : Casing) (R : FloatReader) (settings : Fields) (port : ℤ)
    (query : List (Str × Values)) (headers : List (Str × Str)) :
    (∃ p s, parameters settings port query headers = some p ∧
      serveNodeInstaller K settings port query headers = some s ∧ AsData K p R s) ↔
        ∃ p, parameters settings port query headers = some p ∧ Harmless K p := by
  constructor
  · rintro ⟨p, s, hp, hserve, hdata⟩
    rw [serveNodeInstaller, hp, Option.bind_some] at hserve
    split_ifs at hserve with hencodable
    cases hserve
    exact ⟨p, hp, harmless_of_asData (encodable_script.mp hencodable) hdata⟩
  · rintro ⟨p, hp, hharmless⟩
    refine ⟨p, script K p, hp, ?_, asData_of_harmless R hharmless⟩
    rw [serveNodeInstaller, hp, Option.bind_some, if_pos (encodable_script.mpr hharmless.encodable)]

/-- `str.upper` of text in ASCII. -/
def asciiUpper : Casing where
  upper := fun s => s.map fun c => if 97 ≤ c ∧ c ≤ 122 then c - 32 else c
  mem_upper := by
    intro s c hc
    obtain ⟨d, hd, rfl⟩ := List.mem_map.mp hc
    by_cases hlower : 97 ≤ d ∧ d ≤ 122
    · rw [if_pos hlower]
      exact .inr (.inl (by omega))
    · rw [if_neg hlower]
      exact .inl hd

-- a sum of money is put in as it is
example : Harmless asciiUpper ⟨str "s", str "http://10.0.0.1:9090", str "iran", str "node at 5$, 'one'"⟩ :=
  ⟨by decide, by decide, by decide, by decide⟩

/-- A name that runs a command. -/
theorem command_run_from_name :
    ∃ p, parameters [] 9090 [(str "token", ⟨str "s", []⟩), (str "name", ⟨str "$(id)", []⟩)]
        [(str "host", str "10.0.0.1:9090")] = some p ∧
      ∀ K R, ∃ s, serveNodeInstaller K [] 9090 [(str "token", ⟨str "s", []⟩), (str "name", ⟨str "$(id)", []⟩)]
        [(str "host", str "10.0.0.1:9090")] = some s ∧ ¬ AsData K p R s := by
  obtain ⟨p, hp⟩ : ∃ p : Parameters,
      p = ⟨str "s", str "http://" ++ str "10.0.0.1:9090", str "kharej", str "$(id)"⟩ := ⟨_, rfl⟩
  have hparameters : parameters [] 9090 [(str "token", ⟨str "s", []⟩), (str "name", ⟨str "$(id)", []⟩)]
      [(str "host", str "10.0.0.1:9090")] = some p := by
    rw [hp]
    rfl
  have hencodable : ∀ v ∈ p.all, Encodable v := by
    rw [hp]
    decide
  refine ⟨p, hparameters, fun K R => ⟨script K p, ?_, fun hdata => ?_⟩⟩
  · rw [serveNodeInstaller, hparameters, Option.bind_some, if_pos (encodable_script.mpr hencodable)]
  · have hname := (harmless_of_asData hencodable hdata).literal p.name (by simp [Parameters.all])
    rw [hp] at hname
    exact absurd hname (by decide)

end Hawal.Panel.Installer
