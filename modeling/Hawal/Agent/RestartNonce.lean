import Hawal.Panel.Sync
import Hawal.Panel.Effects

/-!
# Restarting the agents

`POST /api/agents/restart` adds one to the nonce of every node. A sync answer carries the nonce of
the node whose token the agent shows, and the agent shuts itself down when this is greater than the
nonce it knows, after writing it to a file from which the next agent on the machine starts.

The file belongs to the machine and the nonce to the node. No request makes an agent shut down twice
(`shutdowns_le_requested`), but when the machine is enrolled again, the file is left from the node
of before, and the requests made for the new node are lost until their number comes up to it.
`restarts_not_lost` says that they are lost in no other way.

That a nonce is stored in 64 bits is not modelled, and the nonce file can always be written. The file and
the agent's memory change in one step: the agent does not end between the two.
-/

namespace Hawal.Agent.RestartNonce

open Hawal.Lib Hawal.Lib.Python Hawal.Panel

/-! ### The panel and the machine -/

/-- A running agent. -/
structure Process where
  token : Text
  agentRestartNonce : ℤ
  shutdownRequested : Bool
  /-- The nonce in the answer that it is about to apply. -/
  answer : Option ℤ

/-- The panel's database and the agent's machine, with what has happened so far. -/
structure State where
  db : Db
  /-- The token in `/etc/hawal/agent.json`. -/
  agentJson : Option Text
  /-- What `_load_agent_restart_nonce` reads. -/
  nonceFile : ℤ
  process : Option Process
  /-- How many restarts were requested while a node had this token. -/
  requested : Text → ℕ
  /-- How often an agent with this token shut itself down. -/
  shutdowns : Text → ℕ
  /-- A restart was requested for the agent's node since the agent started. -/
  owed : Bool
  /-- And before the answer was given that it is about to apply. -/
  owedAnswer : Bool

/-- What can happen next. -/
inductive Action where
  /-- The panel serves a request. -/
  | panel (r : Request)
  /-- The installer writes `agent.json`. -/
  | install (token : Text)
  /-- The service starts the agent. -/
  | start
  /-- The agent ends: it crashes, the service stops it, or its loop is over. -/
  | stop
  /-- `GET /api/agent/sync` is answered. -/
  | ask
  /-- It is not, or what it is answered is lost. -/
  | fail
  /-- `apply_configs`, which raises or not, and what comes after it. -/
  | handle (applied : Bool)

/-- The request is `POST /api/agents/restart`. -/
def isRestart : Request → Bool
  | .restartAgents => true
  | _ => false

/-- A node has the token. -/
def HasToken (db : Db) (token : Text) : Prop := ∃ n ∈ db.nodes.rows, n.token = token

instance decidableHasToken (db : Db) (token : Text) : Decidable (HasToken db token) :=
  inferInstanceAs (Decidable (∃ n ∈ db.nodes.rows, n.token = token))

namespace State

/-- Before anything is installed. -/
def init : State where
  db := Db.empty
  agentJson := none
  nonceFile := 0
  process := none
  requested := fun _ => 0
  shutdowns := fun _ => 0
  owed := false
  owedAnswer := false

/-- The panel serves a request. -/
def serve (s : State) (r : Request) : State :=
  { s with
    db := (route s.db r).2
    requested := fun t => if isRestart r = true ∧ HasToken s.db t then s.requested t + 1 else s.requested t
    owed := (s.owed || isRestart r) && s.process.any fun p => decide (HasToken (route s.db r).2 p.token) }

/-- The service starts the agent: `HawalAgent.__init__`. -/
def start (s : State) (token : Text) : State :=
  { s with process := some ⟨token, s.nonceFile, false, none⟩ }

/-- The agent is gone. -/
def stop (s : State) : State := { s with process := none, owed := false, owedAnswer := false }

/-- `sync_tunnels` has the answer. -/
def ask (s : State) (p : Process) (requestedNonce : ℤ) : State :=
  { s with process := some { p with answer := some requestedNonce }, owedAnswer := s.owed }

/-- The rest of `sync_tunnels`, after `apply_configs`. -/
def handle (s : State) (p : Process) (requestedNonce : ℤ) (applied : Bool) : State :=
  if applied = true ∧ requestedNonce > p.agentRestartNonce then
    { s with
      nonceFile := requestedNonce
      process := some { p with answer := none, agentRestartNonce := requestedNonce, shutdownRequested := true }
      shutdowns := fun t => if t = p.token then s.shutdowns t + 1 else s.shutdowns t }
  else { s with process := some { p with answer := none } }

end State

variable (repr : Json → Str)

/-- What happens next, when it can. An agent that is to shut down asks no more. -/
def step (s : State) : Action → Option State
  | .panel r => some (s.serve r)
  | .install token => some { s with agentJson := some token }
  | .start =>
    match s.process with
    | none => s.agentJson.map s.start
    | some _ => none
  | .stop => s.process.map fun _ => s.stop
  | .ask =>
    s.process.bind fun p =>
      if p.shutdownRequested = true ∨ p.answer.isSome = true then none
      else
        match agentSync repr s.db p.token with
        | .ok (_, requestedNonce) => some (s.ask p requestedNonce)
        | .error _ => none
  | .fail => s.process.map fun p => { s with process := some { p with answer := none } }
  | .handle applied => s.process.bind fun p => p.answer.map fun requestedNonce => s.handle p requestedNonce applied

/-- What is promised of the agent's next step: when it has applied an answer that was given after a
request for its node, it is to shut down. -/
def Honours (s : State) : Prop :=
  s.owedAnswer = true → ∀ s', step repr s (.handle true) = some s' →
    ∃ p, s'.process = some p ∧ p.shutdownRequested = true

/-- Where the machine's nonce meets that of a node: the agent starts with the node's token, or a node
appears with the agent's. The machine's is not greater. -/
def Meets (s : State) : Action → Prop
  | .start => ∀ token, s.agentJson = some token → ∀ n ∈ s.db.nodes.rows, n.token = token →
      s.nonceFile ≤ n.agentRestartNonce
  | .panel r => ∀ p, s.process = some p → ¬ HasToken s.db p.token → ∀ n ∈ (route s.db r).2.nodes.rows,
      n.token = p.token → s.nonceFile ≤ n.agentRestartNonce
  | _ => True

/-! ### What requests do to the nonces of nodes -/

/-- Each node is one of before, whose nonce is greater by `k`, or a new one. -/
def Bumps (k : ℤ) (db db' : Db) : Prop :=
  ∀ n' ∈ db'.nodes.rows,
    (∃ n ∈ db.nodes.rows, n.token = n'.token ∧ n'.agentRestartNonce = n.agentRestartNonce + k) ∨
      n'.agentRestartNonce = 0 ∧ k = 0 ∧ ¬ HasToken db n'.token

theorem bumps_of_nodes {db db' : Db} (h : db'.nodes = db.nodes) : Bumps 0 db db' := by
  intro n hn
  rw [h] at hn
  exact .inl ⟨n, hn, rfl, (Int.add_zero _).symm⟩

theorem bumps_settle {db : Db} {x : Except Failure Db} (h : ∀ db', x = .ok db' → Bumps 0 db db') :
    Bumps 0 db (settle db x).2 := by
  rcases settle_cases db x with ⟨db', hok, hr⟩ | ⟨-, hr⟩
  · rw [hr]
    exact h db' hok
  · rw [hr]
    exact bumps_of_nodes rfl

theorem newNode_nonce {id : BitVec 32} {token : BitVec 128} {located : Bool} {data : Fields} {n : Node}
    (h : newNode id token located data = some n) : n.agentRestartNonce = 0 := by
  simp only [newNode, Option.bind_eq_bind, Option.bind_eq_some_iff] at h
  obtain ⟨_, -, _, -, _, -, h⟩ := h
  split at h
  · cases h
    rfl
  · cases h

theorem bumps_createNode (db : Db) (id : BitVec 32) (token : BitVec 128) (located : Bool) (body : Option Json) :
    Bumps 0 db (settle db (createNode db id token located body)).2 := by
  refine bumps_settle fun db' hok => ?_
  obtain ⟨new, hadd, hsave⟩ := createNode_eq_ok.mp hok
  rw [Db.saveNode, dif_pos hadd.2, Option.some.injEq] at hsave
  subst hsave
  intro n hn
  rcases Table.mem_upsert.mp (Table.mem_rows.mp hn) with (⟨hnone, rfl⟩ | ⟨old, hold, rfl⟩) | ⟨hn, -⟩
  · obtain ⟨⟨data, -, hnew⟩, hfree⟩ := hadd
    refine .inr ⟨newNode_nonce hnew, rfl, ?_⟩
    rintro ⟨o, ho, htoken⟩
    exact hfree hnone o ho htoken
  · exact .inl ⟨old, (Table.find_eq_some.mp hold).1, rfl, (Int.add_zero _).symm⟩
  · exact .inl ⟨n, hn, rfl, (Int.add_zero _).symm⟩

theorem bumps_updateNodeHeartbeat (db : Db) (id ip : Text) : Bumps 0 db (db.updateNodeHeartbeat id ip) := by
  intro n hn
  have hmem : n ∈ db.nodes.update id (fun n => { n with ip := ip }) fun _ => rfl := hn
  rcases Table.mem_update.mp hmem with ⟨old, hold, -, rfl⟩ | ⟨hn, -⟩
  · exact .inl ⟨old, hold, rfl, (Int.add_zero _).symm⟩
  · exact .inl ⟨n, hn, rfl, (Int.add_zero _).symm⟩

/-- A request adds one to the nonces, or leaves them. -/
theorem bumps_route (db : Db) (r : Request) : Bumps (if isRestart r then 1 else 0) db (route db r).2 := by
  cases r with
  | createNode id token located body => exact bumps_createNode db id token located body
  | deleteNode id => exact fun n hn => .inl ⟨n, (Table.mem_delete.mp hn).1, rfl, (Int.add_zero _).symm⟩
  | heartbeat token forwarded peer body =>
    refine bumps_settle fun db' hok => ?_
    obtain ⟨id, ip, rfl⟩ := heartbeat_eq_ok hok
    exact bumps_updateNodeHeartbeat db id ip
  | createTunnel id token body =>
    refine bumps_settle fun db' hok => ?_
    obtain ⟨t, -, rfl⟩ := createTunnel_eq_ok.mp hok
    exact bumps_of_nodes rfl
  | editTunnel id body =>
    refine bumps_settle fun db' hok => ?_
    obtain ⟨t, e, -, rfl⟩ := editTunnel_eq_ok.mp hok
    exact bumps_of_nodes rfl
  | deleteTunnel id => exact bumps_of_nodes rfl
  | setStatus id body =>
    refine bumps_settle fun db' hok => ?_
    rcases setStatus_eq_ok hok with ⟨t, status, -, rfl⟩ | ⟨-, rfl | ⟨status, rfl⟩⟩
    · exact bumps_of_nodes rfl
    · exact bumps_of_nodes rfl
    · exact bumps_of_nodes rfl
  | restartTunnel id =>
    refine bumps_settle fun db' hok => ?_
    rw [restartTunnel_eq_ok hok]
    exact bumps_of_nodes rfl
  | restartAgents =>
    intro n hn
    have hmem : n ∈ db.nodes.updateAll (fun n => { n with agentRestartNonce := n.agentRestartNonce + 1 })
        fun _ => rfl := hn
    obtain ⟨old, hold, rfl⟩ := Table.mem_updateAll.mp hmem
    exact .inl ⟨old, hold, rfl, rfl⟩
  | traffic body => exact bumps_of_nodes (nodes_traffic db body)

/-! ### No request counts twice -/

/-- What the counts have to do with the nonces. -/
structure Counted (s : State) : Prop where
  nodes : ∀ n ∈ s.db.nodes.rows, n.agentRestartNonce ≤ s.requested n.token
  file : ∀ t, (s.shutdowns t : ℤ) ≤ s.nonceFile
  shutdowns : ∀ t, s.shutdowns t ≤ s.requested t
  memory : ∀ p, s.process = some p → p.agentRestartNonce = s.nonceFile
  answer : ∀ p, s.process = some p → ∀ n, p.answer = some n → n ≤ s.requested p.token

theorem counted_init : Counted State.init where
  nodes := fun _ hn => by cases hn
  file := fun _ => Int.le_refl _
  shutdowns := fun _ => Nat.le_refl _
  memory := fun _ hp => by cases hp
  answer := fun _ hp => by cases hp

theorem serve_requested (s : State) (r : Request) (t : Text) : (s.serve r).requested t =
    if isRestart r = true ∧ HasToken s.db t then s.requested t + 1 else s.requested t := rfl

theorem requested_le_serve (s : State) (r : Request) (t : Text) : s.requested t ≤ (s.serve r).requested t := by
  rw [serve_requested]
  split <;> omega

theorem counted_serve {s : State} (h : Counted s) (r : Request) : Counted (s.serve r) where
  nodes := by
    intro n' hn'
    rcases bumps_route s.db r n' hn' with ⟨n, hn, htoken, hnonce⟩ | ⟨hzero, -, -⟩
    · have hle := h.nodes n hn
      rw [htoken] at hle
      rw [serve_requested]
      split
      · rename_i hreq
        rw [hreq.1, if_pos rfl] at hnonce
        omega
      · rename_i hreq
        have hkept : isRestart r = false := by
          rw [Bool.eq_false_iff]
          exact fun hr => hreq ⟨hr, n, hn, htoken⟩
        rw [hkept, if_neg Bool.false_ne_true] at hnonce
        omega
    · rw [hzero]
      exact Int.natCast_nonneg _
  file := h.file
  shutdowns := fun t => Nat.le_trans (h.shutdowns t) (requested_le_serve s r t)
  memory := h.memory
  answer := by
    intro p hp n hn
    have hle := h.answer p hp n hn
    have hmono := requested_le_serve s r p.token
    omega

theorem counted_handle {s : State} (h : Counted s) {p : Process} (hp : s.process = some p) {n : ℤ}
    (hn : p.answer = some n) (applied : Bool) : Counted (s.handle p n applied) := by
  have hmemory := h.memory p hp
  have hanswer := h.answer p hp n hn
  unfold State.handle
  split
  · rename_i hgreater
    have hnew := hgreater.2
    refine ⟨h.nodes, fun t => ?_, fun t => ?_, fun q hq => ?_, fun q hq => ?_⟩
    · have := h.file t
      dsimp only
      split <;> omega
    · have := h.file t
      have := h.shutdowns t
      dsimp only
      split
      · rename_i ht
        subst ht
        omega
      · assumption
    · cases hq
      rfl
    · cases hq
      exact fun n' hn' => by cases hn'
  · refine ⟨h.nodes, h.file, h.shutdowns, fun q hq => ?_, fun q hq => ?_⟩
    · cases hq
      exact hmemory
    · cases hq
      exact fun n' hn' => by cases hn'

/-- An answer carries the nonce of a node with the agent's token. -/
theorem agentSync_nonce {db : Db} {token : Text} {es : List Panel.Entry} {n : ℤ}
    (h : agentSync repr db token = .ok (es, n)) :
    ∃ node ∈ db.nodes.rows, node.token = token ∧ n = node.agentRestartNonce := by
  cases hfind : db.getNodeByToken token with
  | none => simp [agentSync, hfind] at h
  | some node =>
    have hnode : node ∈ db.nodes.rows := List.mem_of_find?_eq_some hfind
    have htoken : node.token = token := of_decide_eq_true (List.find?_some hfind :)
    subst htoken
    exact ⟨node, hnode, rfl, ((agentSync_eq_ok repr hnode).mp h).2⟩

/-- What an asked agent is told. -/
theorem step_ask {s s' : State} (h : step repr s .ask = some s') :
    ∃ p n, s.process = some p ∧ p.shutdownRequested = false ∧ s' = s.ask p n ∧
      ∃ node ∈ s.db.nodes.rows, node.token = p.token ∧ n = node.agentRestartNonce := by
  obtain ⟨p, hp, hrest⟩ := Option.bind_eq_some_iff.mp h
  split at hrest
  · cases hrest
  · rename_i hidle
    split at hrest
    · rename_i es n hsync
      cases hrest
      refine ⟨p, n, hp, ?_, rfl, agentSync_nonce repr hsync⟩
      exact Bool.eq_false_iff.mpr fun hdown => hidle (.inl hdown)
    · cases hrest

theorem counted_step {s s' : State} {a : Action} (hs : Counted s) (h : step repr s a = some s') : Counted s' := by
  cases a with
  | panel r =>
    cases h
    exact counted_serve hs r
  | install token =>
    cases h
    exact ⟨hs.nodes, hs.file, hs.shutdowns, hs.memory, hs.answer⟩
  | start =>
    rw [step] at h
    split at h
    · obtain ⟨token, -, rfl⟩ := Option.map_eq_some_iff.mp h
      refine ⟨hs.nodes, hs.file, hs.shutdowns, fun q hq => ?_, fun q hq => ?_⟩
      · cases hq
        rfl
      · cases hq
        exact fun n hn => by cases hn
    · cases h
  | stop =>
    obtain ⟨p, -, rfl⟩ := Option.map_eq_some_iff.mp h
    refine ⟨hs.nodes, hs.file, hs.shutdowns, fun q hq => ?_, fun q hq => ?_⟩
    · cases hq
    · cases hq
  | ask =>
    obtain ⟨p, n, hp, -, rfl, node, hnode, htoken, rfl⟩ := step_ask repr h
    refine ⟨hs.nodes, hs.file, hs.shutdowns, fun q hq => ?_, fun q hq => ?_⟩
    · cases hq
      exact hs.memory p hp
    · cases hq
      intro n hn
      cases hn
      exact htoken ▸ hs.nodes node hnode
  | fail =>
    obtain ⟨p, hp, rfl⟩ := Option.map_eq_some_iff.mp h
    refine ⟨hs.nodes, hs.file, hs.shutdowns, fun q hq => ?_, fun q hq => ?_⟩
    · cases hq
      exact hs.memory p hp
    · cases hq
      exact fun n hn => by cases hn
  | handle applied =>
    obtain ⟨p, hp, hrest⟩ := Option.bind_eq_some_iff.mp h
    obtain ⟨n, hn, rfl⟩ := Option.map_eq_some_iff.mp hrest
    exact counted_handle hs hp hn applied

/-- In every run, an agent with some token shut itself down at most once for each restart that was
requested for a node with this token. -/
theorem shutdowns_le_requested {as : List Action} {s : State} (h : exec (step repr) State.init as = some s) (t : Text) :
    s.shutdowns t ≤ s.requested t :=
  (exec_inv (fun _ _ _ hs hstep => counted_step repr hs hstep) counted_init h).shutdowns t

/-! ### No request is lost -/

/-- The agent's nonce is not ahead of its node's, and behind it when a restart is owed. -/
structure Behind (s : State) : Prop where
  owed : s.owed = true → ∃ p, s.process = some p ∧ HasToken s.db p.token
  node : ∀ p, s.process = some p → p.shutdownRequested = false → ∀ n ∈ s.db.nodes.rows, n.token = p.token →
    p.agentRestartNonce ≤ n.agentRestartNonce ∧ (s.owed = true → p.agentRestartNonce < n.agentRestartNonce)
  answer : ∀ p, s.process = some p → p.shutdownRequested = false → ∀ n, p.answer = some n → s.owedAnswer = true →
    p.agentRestartNonce < n

theorem behind_init : Behind State.init where
  owed := fun h => by cases h
  node := fun _ hp => by cases hp
  answer := fun _ hp => by cases hp

theorem behind_serve {s : State} (hc : Counted s) (h : Behind s) {r : Request} (hmeets : Meets s (.panel r)) :
    Behind (s.serve r) := by
  refine ⟨fun howed => ?_, fun p hp hup n' hn' htoken => ?_, h.answer⟩
  · obtain ⟨-, hsome⟩ := (Bool.and_eq_true _ _).mp howed
    cases hp : s.process with
    | none =>
      rw [hp] at hsome
      cases hsome
    | some p =>
      rw [hp] at hsome
      exact ⟨p, hp, of_decide_eq_true hsome⟩
  · have howed : (s.serve r).owed = true → s.owed = true ∨ isRestart r = true := fun ho =>
      (Bool.or_eq_true _ _).mp ((Bool.and_eq_true _ _).mp ho).1
    rcases bumps_route s.db r n' hn' with ⟨n, hn, hsame, hnonce⟩ | ⟨-, hzero, hnew⟩
    · obtain ⟨hle, hlt⟩ := h.node p hp hup n hn (hsame.trans htoken)
      cases hr : isRestart r with
      | true =>
        rw [hr, if_pos rfl] at hnonce
        exact ⟨by omega, fun _ => by omega⟩
      | false =>
        rw [hr, if_neg Bool.false_ne_true] at hnonce
        refine ⟨by omega, fun ho => ?_⟩
        rcases howed ho with ho | ho
        · have := hlt ho
          omega
        · rw [hr] at ho
          cases ho
    · rw [htoken] at hnew
      have hle := hmeets p hp hnew n' hn' htoken
      rw [← hc.memory p hp] at hle
      refine ⟨hle, fun ho => ?_⟩
      rcases howed ho with ho | ho
      · obtain ⟨q, hq, hhas⟩ := h.owed ho
        cases hp.symm.trans hq
        exact absurd hhas hnew
      · rw [ho, if_pos rfl] at hzero
        omega

theorem behind_handle {s : State} (h : Behind s) {p : Process} (hp : s.process = some p) (n : ℤ) (applied : Bool) :
    Behind (s.handle p n applied) := by
  have howed : s.owed = true → HasToken s.db p.token := by
    intro ho
    obtain ⟨q, hq, hhas⟩ := h.owed ho
    cases hp.symm.trans hq
    exact hhas
  unfold State.handle
  split
  · refine ⟨fun ho => ⟨_, rfl, howed ho⟩, fun q hq hup => ?_, fun q hq hup => ?_⟩
    · cases hq
      cases hup
    · cases hq
      cases hup
  · refine ⟨fun ho => ⟨_, rfl, howed ho⟩, fun q hq hup => ?_, fun q hq hup n hn => ?_⟩
    · cases hq
      exact h.node p hp hup
    · cases hq
      cases hn

theorem behind_step {s s' : State} {a : Action} (hc : Counted s) (hs : Behind s) (hmeets : Meets s a)
    (h : step repr s a = some s') : Behind s' := by
  cases a with
  | panel r =>
    cases h
    exact behind_serve hc hs hmeets
  | install token =>
    cases h
    exact ⟨hs.owed, hs.node, hs.answer⟩
  | start =>
    rw [step] at h
    split at h
    · rename_i hnone
      obtain ⟨token, htoken, rfl⟩ := Option.map_eq_some_iff.mp h
      have hfree : ¬ s.owed = true := by
        intro ho
        obtain ⟨p, hp, -⟩ := hs.owed ho
        rw [hnone] at hp
        cases hp
      refine ⟨fun ho => absurd ho hfree, fun q hq _ n hn hsame => ?_, fun q hq _ n hn => ?_⟩
      · cases hq
        exact ⟨hmeets token htoken n hn hsame, fun ho => absurd ho hfree⟩
      · cases hq
        cases hn
    · cases h
  | stop =>
    obtain ⟨p, -, rfl⟩ := Option.map_eq_some_iff.mp h
    refine ⟨fun ho => ?_, fun q hq => ?_, fun q hq => ?_⟩
    · cases ho
    · cases hq
    · cases hq
  | ask =>
    obtain ⟨p, n, hp, hup, rfl, node, hnode, htoken, rfl⟩ := step_ask repr h
    refine ⟨fun ho => ?_, fun q hq _ => ?_, fun q hq _ n hn ho => ?_⟩
    · obtain ⟨q, hq, hhas⟩ := hs.owed ho
      cases hp.symm.trans hq
      exact ⟨_, rfl, hhas⟩
    · cases hq
      exact hs.node p hp hup
    · cases hq
      cases hn
      exact (hs.node p hp hup node hnode htoken).2 ho
  | fail =>
    obtain ⟨p, hp, rfl⟩ := Option.map_eq_some_iff.mp h
    refine ⟨fun ho => ?_, fun q hq hup => ?_, fun q hq _ n hn => ?_⟩
    · obtain ⟨q, hq, hhas⟩ := hs.owed ho
      cases hp.symm.trans hq
      exact ⟨_, rfl, hhas⟩
    · cases hq
      exact hs.node p hp hup
    · cases hq
      cases hn
  | handle applied =>
    obtain ⟨p, hp, hrest⟩ := Option.bind_eq_some_iff.mp h
    obtain ⟨n, -, rfl⟩ := Option.map_eq_some_iff.mp hrest
    exact behind_handle hs hp n applied

theorem honours_of_behind {s : State} (hs : Behind s) : Honours repr s := by
  intro howed s' h
  obtain ⟨p, hp, hrest⟩ := Option.bind_eq_some_iff.mp h
  obtain ⟨n, hn, rfl⟩ := Option.map_eq_some_iff.mp hrest
  unfold State.handle
  split
  · exact ⟨_, rfl, rfl⟩
  · rename_i hnot
    -- without a greater nonce only an agent that is shutting down already was owed this answer
    refine ⟨_, rfl, ?_⟩
    by_contra hup
    have hlt := hs.answer p hp (Bool.eq_false_iff.mpr hup) n hn howed
    exact hnot ⟨rfl, hlt⟩

/-- **When no restart is lost**: in every run in which the machine's nonce was not greater whenever an
agent started with the token of a node, or a node came up with the agent's, no agent shuts itself
down more often than restarts were requested for it, and an agent that applies an answer given after
a request shuts down. -/
theorem restarts_not_lost {as : List Action} {s : State} (h : exec (step repr) State.init as = some s)
    (hmeets : Along (step repr) Meets State.init as) :
    (∀ t, s.shutdowns t ≤ s.requested t) ∧ Honours repr s := by
  have hinv : Counted s ∧ Behind s := by
    refine exec_inv_along (I := fun s => Counted s ∧ Behind s) (fun s a s' hs hm hstep => ?_)
      ⟨counted_init, behind_init⟩ hmeets h
    exact ⟨counted_step repr hs.1 hstep, behind_step repr hs.1 hs.2 hm hstep⟩
  exact ⟨hinv.1.shutdowns, honours_of_behind repr hinv.2⟩

/-! ### A machine that is enrolled again -/

/-- A node is created; its token is that of the drawn number. -/
def enrol (k : ℕ) : List Action :=
  [.panel (.createNode (BitVec.ofNat 32 k) (BitVec.ofNat 128 k) true (some (.dict []))),
    .install (tokenHex 32 (BitVec.ofNat 128 k).toNat), .start]

/-- A restart is requested, and the agent's next sync applies. -/
def restarted : List Action := [.panel .restartAgents, .ask, .handle true]

/-- The agent of one node restarts, and then the machine is enrolled as another node. -/
def enrolledAgain : List Action :=
  enrol 1 ++ restarted ++ [.stop, .panel (.deleteNode (text "node_00000001"))] ++ enrol 2 ++
    [.panel .restartAgents, .ask]

instance decidableMeets (s : State) : (a : Action) → Decidable (Meets s a)
  | .start =>
    match h : s.agentJson with
    | none => isTrue fun _ ht => by rw [h] at ht; cases ht
    | some token =>
      decidable_of_iff (∀ n ∈ s.db.nodes.rows, n.token = token → s.nonceFile ≤ n.agentRestartNonce)
        ⟨fun hall t ht => by rw [h] at ht; cases ht; exact hall, fun hall => hall token h⟩
  | .panel r =>
    match h : s.process with
    | none => isTrue fun _ hp => by rw [h] at hp; cases hp
    | some p =>
      decidable_of_iff (¬ HasToken s.db p.token → ∀ n ∈ (route s.db r).2.nodes.rows,
          n.token = p.token → s.nonceFile ≤ n.agentRestartNonce)
        ⟨fun hall q hq => by rw [h] at hq; cases hq; exact hall, fun hall => hall p h⟩
  | .install _ => isTrue trivial
  | .stop => isTrue trivial
  | .ask => isTrue trivial
  | .fail => isTrue trivial
  | .handle _ => isTrue trivial

/-- The request for the new node is answered and applied, and the agent goes on. -/
theorem enrolledAgain_lost : ∃ s, exec (step fun _ => []) State.init enrolledAgain = some s ∧
    ¬ Honours (fun _ => []) s := by
  have hrun : ∃ s, exec (step fun _ => []) State.init enrolledAgain = some s ∧ s.owedAnswer = true ∧
      ((step (fun _ => []) s (.handle true)).any fun s' =>
        s'.process.any fun p => !p.shutdownRequested) = true := exists_of_any (by decide +kernel)
  obtain ⟨s, hs, howed, hstep⟩ := hrun
  refine ⟨s, hs, fun hhonours => ?_⟩
  cases hnext : step (fun _ => []) s (.handle true) with
  | none =>
    rw [hnext] at hstep
    cases hstep
  | some s' =>
    obtain ⟨p, hp, hdown⟩ := hhonours howed s' hnext
    rw [hnext, Option.any_some, hp, Option.any_some, hdown] at hstep
    cases hstep

/-- Also when the machine is enrolled again, no node's agent has shut down more often than requested. -/
theorem enrolledAgain_counted : ∃ s, exec (step fun _ => []) State.init enrolledAgain = some s ∧
    s.shutdowns (tokenHex 32 1) = 1 ∧ s.shutdowns (tokenHex 32 1) ≤ s.requested (tokenHex 32 1) := by
  obtain ⟨s, hs, hdown⟩ : ∃ s, exec (step fun _ => []) State.init enrolledAgain = some s ∧
      s.shutdowns (tokenHex 32 1) = 1 := exists_of_any (by decide +kernel)
  exact ⟨s, hs, hdown, shutdowns_le_requested (fun _ => []) hs (tokenHex 32 1)⟩

/-- A restart is requested on the first node that the machine is enrolled as: the agent has the answer, and will shut
down when it has applied it. -/
theorem enrol_restarted : ∃ s, exec (step fun _ => []) State.init (enrol 1 ++ [.panel .restartAgents, .ask]) = some s ∧
    s.owedAnswer = true ∧ (step (fun _ => []) s (.handle true)).isSome = true ∧
      (∀ t, s.shutdowns t ≤ s.requested t) ∧ Honours (fun _ => []) s := by
  have hrun : ∃ s, exec (step fun _ => []) State.init (enrol 1 ++ [.panel .restartAgents, .ask]) = some s ∧
      s.owedAnswer = true ∧ (step (fun _ => []) s (.handle true)).isSome = true := exists_of_any (by decide +kernel)
  obtain ⟨s, hs, howed, hhandle⟩ := hrun
  have hmeets : Along (step fun _ => []) Meets State.init (enrol 1 ++ [.panel .restartAgents, .ask]) := by
    decide +kernel
  exact ⟨s, hs, howed, hhandle, restarts_not_lost (fun _ => []) hs hmeets⟩

end Hawal.Agent.RestartNonce
