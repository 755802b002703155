import Hawal.Core.Config
import Hawal.Fleet.Converge

/-!
# What the cores start from

The way of a row's settings to the two cores of a Hawal tunnel: the generators of the panel, the answers to the
syncs, the files that the agents write, and `main` of the core. `fleet_cores` says which settings arrive, and for
which rows the cores end at once.
-/

namespace Hawal.Fleet

open Hawal.Lib Hawal.Lib.Python Hawal.Panel Hawal.Agent Hawal.Core

variable {repr : Json → Str} {R : FloatReader} {machines : Text → Str → Outcome} {f f' : System}

/-- The process of the tunnel runs, and was started with a file with this content. -/
def RunsFile (s : HawalAgent) (tun content : Str) : Prop :=
  ∃ pid l, s.processes.lookup tun = some pid ∧ pid ∈ s.alive ∧ s.launches[pid]? = some l ∧ l.engine = .hawal ∧
    l.content = content

theorem Carries.runsFile {machine : Str → Outcome} {s : HawalAgent} {t : Tunnel} {role : Role} {config : Fields}
    (h : Carries machine s t role (.hawal config)) : RunsFile s t.id.val (dumpsIn .indented (.dict config)) := by
  obtain ⟨l, pid, hoffer, hpid, halive, hlaunch⟩ := h
  cases hoffer
  exact ⟨pid, _, hpid, halive, hlaunch, rfl, rfl⟩

/-- **What the cores start from**: when the agents of the two nodes of a running Hawal tunnel have synced, each runs a
core on a file from which it gets the settings of the row. At the one it listens on the tunnel's port, at the other
it dials this port there; both have the same rules, secret, padding and delay. But if the row has no secret, or
rules that are not strings, both cores end at once. -/
theorem fleet_cores (hR : FloatPrints R) (hrepr : ReprPrints repr) {steps quiet : List Step}
    (h : Settling repr R machines steps quiet f f') {t : Tunnel} (ht : t ∈ f.db.tunnels) (hrunning : t.Running)
    (hcore : t.coreType = text "hawal") {l d : Node} (hl : l ∈ f.db.nodes) (hd : d ∈ f.db.nodes)
    (hlid : t.listener = l.id) (hdid : t.dialer = d.id) (hne : l ≠ d) :
    ∃ atListener atDialer, RunsFile (f'.agents l.token) t.id.val atListener ∧
      RunsFile (f'.agents d.token) t.id.val atDialer ∧ ∀ files path, path ≠ [] →
        (t.token.val ≠ [] → ∀ rules, decodeRules [] t.ports = some rules →
          (files path = some atListener → main R files (commandLine path) = some (.server
            { bindAddr := hostPort (str "0.0.0.0") t.corePort, ports := rules, token := t.token.val
              enablePadding := t.snappy ≠ 0, noDelay := t.nodelay ≠ 0 })) ∧
          (files path = some atDialer → main R files (commandLine path) = some (.client
            { connectAddr := hostPort l.ip.val t.corePort, ports := rules, token := t.token.val
              enablePadding := t.snappy ≠ 0, noDelay := t.nodelay ≠ 0 }))) ∧
        (t.token.val = [] ∨ ¬ IsRules t.ports → files path = some atListener ∨ files path = some atDialer →
          main R files (commandLine path) = none) := by
  have hagrees := h.agrees hR hrepr
  have hdb := (ok_exec hR hrepr h.received h.short h.run).clean
  have hpaqet : t.coreType ≠ text "paqet" := by rw [hcore]; decide
  have hgost : t.coreType ≠ text "gost" := by rw [hcore]; decide
  have hpay : serverPayload repr t = some (.hawal (generateHawalCoreServerConfig t)) := by
    rw [serverPayload, if_neg hpaqet, if_neg hgost, if_pos hcore]
  have hqay : clientPayload repr t l.ip.val = some (.hawal (generateHawalCoreClientConfig t l.ip.val)) := by
    rw [clientPayload, if_neg hpaqet, if_neg hgost, if_pos hcore]
  have hserver := (hagrees l hl).carries ht ⟨hrunning, .inl hlid⟩ (syncEntry_listener repr f.db hrunning hlid hpay)
  have hclient := (hagrees d hd).carries ht ⟨hrunning, .inr hdid⟩
    (syncEntry_dialer repr hrunning hl hd hlid hdid hne hqay)
  have hclean := hdb.tunnels t ht
  have hip : Sealed l.ip.val := sealed_text (hdb.nodes l hl)
  refine ⟨_, _, hserver.runsFile, hclient.runsFile, fun files path hpath => ⟨fun htoken rules hrules => ⟨?_, ?_⟩, ?_⟩⟩
  · intro hfile
    rw [main_server hclean hpath hfile, if_neg htoken, hrules]
    rfl
  · intro hfile
    rw [main_client hclean hip hpath hfile, if_neg htoken, hrules]
    rfl
  · intro hbad hfile
    have hnone : t.token.val ≠ [] → decodeRules [] t.ports = none := by
      intro htoken
      refine Option.not_isSome_iff_eq_none.mp fun hsome => ?_
      exact hbad.elim htoken fun hno => hno ((decodeRules_isSome_iff []).mp hsome)
    by_cases htoken : t.token.val = []
    · rcases hfile with hfile | hfile
      · rw [main_server hclean hpath hfile, if_pos htoken]
      · rw [main_client hclean hip hpath hfile, if_pos htoken]
    · rcases hfile with hfile | hfile
      · rw [main_server hclean hpath hfile, if_neg htoken, hnone htoken]
        rfl
      · rw [main_client hclean hip hpath hfile, if_neg htoken, hnone htoken]
        rfl

theorem isRules_of_strings {v : Json} (h : (strings? v).isSome = true) : IsRules v := by
  cases v with
  | list xs =>
    refine .inr ⟨xs, rfl, fun x hx => .inr ?_⟩
    have hall : ∀ xs : List Json, (xs.mapM string?).isSome = true → ∀ x ∈ xs, ∃ s, x = .str s := by
      intro xs
      induction xs with
      | nil => simp
      | cons y ys ih => cases y <;> cases hys : ys.mapM string? <;> simp_all [List.mapM_cons, string?]
    exact hall xs h x hx
  | _ => cases h

/-- The two cores of the pair run. -/
theorem pair_cores : ∃ f f' : System, ∃ t l d,
    exec (fleetStep (fun _ => []) Settings.verbatim) f pairQuiet = some f' ∧
    ∃ atListener atDialer, RunsFile (f'.agents l) t atListener ∧ RunsFile (f'.agents d) t atDialer ∧
      ∀ files path, path ≠ [] →
        (files path = some atListener → ∃ cfg, main Settings.verbatim files (commandLine path) = some (.server cfg)) ∧
        (files path = some atDialer → ∃ cfg, main Settings.verbatim files (commandLine path) = some (.client cfg)) := by
  obtain ⟨f, hrun, hpair⟩ := exists_pair
  obtain ⟨f', hsettling⟩ := pair_settling hrun hpair
  obtain ⟨-, -, t, ht, hrunning, hcore, htoken, hstrings, l, hl, d, hd, hlid, hdid, hne⟩ := id hpair
  obtain ⟨rules, hrules⟩ := Option.isSome_iff_exists.mp ((decodeRules_isSome_iff []).mpr (isRules_of_strings hstrings))
  obtain ⟨atListener, atDialer, hlistener, hdialer, hcores⟩ := fleet_cores floatPrints_verbatim reprPrints_nil
    hsettling ht hrunning hcore hl hd hlid hdid hne
  refine ⟨f, f', t.id.val, l.token, d.token, hsettling.rest, atListener, atDialer, hlistener, hdialer, fun files path hpath => ?_⟩
  obtain ⟨hserver, hclient⟩ := (hcores files path hpath).1 htoken rules hrules
  exact ⟨fun hfile => ⟨_, hserver hfile⟩, fun hfile => ⟨_, hclient hfile⟩⟩

end Hawal.Fleet
