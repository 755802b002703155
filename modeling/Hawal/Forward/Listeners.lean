import Hawal.Lib.Run
import Hawal.Panel.PortRules
import Mathlib.Data.List.Enum
import Mathlib.Tactic.SplitIfs

/-!
# The listeners of the server

`handleIncomingTransport`, `startForwardedListeners` and `forwardPortLoop` of
`core/server/server.go`, for any number of clients that have authenticated. Installing a
session is one section under `s.mu`; the ports are bound after it, one at a time, and each
listener is appended to `s.listeners` in another section. In between, the executions of
other clients go on.

* `Server.step` — the step function.
* `Stale` — a listener is open whose connections go to a session that was replaced.
* `Orderly` — the steps that do not lead there (`orderly_iff_never_stale`).
-/

namespace Hawal.Forward

open Hawal.Lib

open Python (Str)

open Panel.PortRules (listenPort)

/-- What does not change; `α` is the type of addresses. -/
structure ServerConfig (α : Type*) where
  /-- `config.Ports`. -/
  ports : List Str
  /-- The address that `net.Listen` makes of a port's text. -/
  addr : Str → α

/-- A listener, with the goroutine in `forwardPortLoop`. -/
structure Listener where
  /-- The port's text. -/
  listenPort : Str
  /-- The session that the connections are passed to, by its client. -/
  session : ℕ
  /-- It was not closed. -/
  isOpen : Bool := true
  deriving DecidableEq, Repr

/-- Where an execution of `handleIncomingTransport` is. -/
inductive Task where
  /-- Before `s.mu.Lock()`. -/
  | authenticated
  /-- In the loop of `startForwardedListeners`, with these rules to come. -/
  | starting (rules : List Str)
  /-- `net.Listen` has returned the listener `l`, and it was not appended yet. -/
  | bound (l : ℕ) (rules : List Str)
  deriving DecidableEq, Repr

/-- The rules that an execution has not tried. -/
def Task.rules : Task → List Str
  | .authenticated => []
  | .starting rules => rules
  | .bound _ rules => rules

/-- The execution has returned. -/
def Task.Over (t : Task) : Prop := t = .starting []

instance : DecidablePred Task.Over := fun _ => inferInstanceAs (Decidable (_ = _))

/-- `Server`, with the executions of `handleIncomingTransport`. -/
structure Server where
  /-- `s.session`, by its client. -/
  session : Option ℕ := none
  /-- `s.listeners`. -/
  listeners : List ℕ := []
  /-- The listeners made so far. -/
  heap : List Listener := []
  /-- The executions, one for each client that has authenticated. -/
  tasks : List Task := []
  deriving DecidableEq, Repr

namespace Server

/-- The steps. -/
inductive Event where
  /-- A client has authenticated. -/
  | authenticate
  /-- The section of `handleIncomingTransport` under `s.mu`. -/
  | install (n : ℕ)
  /-- `net.Listen`. -/
  | listen (n : ℕ)
  /-- `s.listeners = append(s.listeners, l)`, and the start of `forwardPortLoop`. -/
  | append (n : ℕ)
  deriving DecidableEq, Repr

variable {α : Type*} (cfg : ServerConfig α) (s : Server)

/-- Another listener of the server holds the port. -/
def Held (port : Str) : Prop := ∃ l ∈ s.heap, l.isOpen = true ∧ cfg.addr l.listenPort = cfg.addr port

instance [DecidableEq α] (port : Str) : Decidable (s.Held cfg port) := inferInstanceAs (Decidable (∃ l ∈ s.heap, _))

/-- The execution `n` goes on at `t`. -/
def goto (n : ℕ) (t : Task) : Server := { s with tasks := s.tasks.set n t }

/-- `l.Close()` of the listeners in `s.listeners`. -/
def closeListeners : List Listener :=
  s.heap.mapIdx fun i l => if i ∈ s.listeners then { l with isOpen := false } else l

/-- `net.Listen` returns a listener, whose connections are for the session `n`. -/
def bind (portRule : Str) (n : ℕ) : Server :=
  { s with heap := s.heap ++ [{ listenPort := listenPort portRule, session := n }] }

/-- **The step function.**
`net.Listen` fails where another listener holds the port, and the loop goes on. -/
def step [DecidableEq α] (cfg : ServerConfig α) (s : Server) : Event → Option Server
  | .authenticate => some { s with tasks := s.tasks ++ [.authenticated] }
  | .install n =>
    match s.tasks[n]? with
    | some .authenticated =>
      some ({ s with session := some n, listeners := [], heap := s.closeListeners }.goto n (.starting cfg.ports))
    | _ => none
  | .listen n =>
    match s.tasks[n]? with
    | some (.starting (rule :: rules)) =>
      if s.Held cfg (listenPort rule) then some (s.goto n (.starting rules))
      else some ((s.bind rule n).goto n (.bound s.heap.length rules))
    | _ => none
  | .append n =>
    match s.tasks[n]? with
    | some (.bound l rules) => some ({ s with listeners := s.listeners ++ [l] }.goto n (.starting rules))
    | _ => none

/-- **What a step can do.** -/
inductive Trans : Event → Server → Prop
  | authenticate : Trans .authenticate { s with tasks := s.tasks ++ [.authenticated] }
  | install {n} (ht : s.tasks[n]? = some .authenticated) : Trans (.install n)
      ({ s with session := some n, listeners := [], heap := s.closeListeners }.goto n (.starting cfg.ports))
  | refused {n rule rules} (ht : s.tasks[n]? = some (.starting (rule :: rules)))
      (hh : s.Held cfg (listenPort rule)) : Trans (.listen n) (s.goto n (.starting rules))
  | listen {n rule rules} (ht : s.tasks[n]? = some (.starting (rule :: rules)))
      (hh : ¬ s.Held cfg (listenPort rule)) : Trans (.listen n)
      ((s.bind rule n).goto n (.bound s.heap.length rules))
  | append {n l rules} (ht : s.tasks[n]? = some (.bound l rules)) : Trans (.append n)
      ({ s with listeners := s.listeners ++ [l] }.goto n (.starting rules))

variable {cfg s}

theorem trans_of_step [DecidableEq α] {s' : Server} {e : Event} (h : step cfg s e = some s') : Trans cfg s e s' := by
  cases e with
  | authenticate =>
    cases h
    exact .authenticate
  | install n =>
    simp only [step] at h
    split at h
    · rename_i ht
      cases h
      exact .install ht
    · cases h
  | listen n =>
    simp only [step] at h
    split at h
    · rename_i ht
      split_ifs at h with hh <;> cases h
      · exact .refused ht hh
      · exact .listen ht hh
    · cases h
  | append n =>
    simp only [step] at h
    split at h
    · rename_i ht
      cases h
      exact .append ht
    · cases h

/-! ### What the listeners are for -/

variable (cfg s)

/-- A listener is open whose connections go to a session that was replaced. -/
def Stale : Prop := ∃ l ∈ s.heap, l.isOpen = true ∧ s.session ≠ some l.session

instance : Decidable s.Stale := inferInstanceAs (Decidable (∃ l ∈ s.heap, _))

/-- No execution is in progress. -/
def Idle : Prop := ∀ t ∈ s.tasks, t.Over

instance : Decidable s.Idle := inferInstanceAs (Decidable (∀ t ∈ s.tasks, _))

/-- The rule whose port an execution binds next. -/
def nextRule (n : ℕ) : Option (Str) :=
  match s.tasks[n]? with
  | some (.starting (rule :: _)) => some rule
  | _ => none

/-- **The steps that keep the listeners with the session**: a session is installed when every
open listener has been appended to `s.listeners`, and a port that nobody holds is bound for
the session that is installed. -/
def Orderly : Event → Prop
  | .install _ => ∀ p ∈ s.heap.zipIdx, p.1.isOpen = true → p.2 ∈ s.listeners
  | .listen n => ∀ rule ∈ s.nextRule n, s.session = some n ∨ s.Held cfg (listenPort rule)
  | _ => True

instance [DecidableEq α] (e : Event) : Decidable (s.Orderly cfg e) := by
  cases e <;> unfold Orderly <;> infer_instance

variable {cfg s}

/-- The listeners belong to executions that have installed their sessions. -/
def Owned (s : Server) : Prop := ∀ l ∈ s.heap, ∃ t, s.tasks[l.session]? = some t ∧ t ≠ .authenticated

theorem mem_closeListeners {l : Listener} :
    l ∈ s.closeListeners ↔ ∃ p ∈ s.heap.zipIdx, l = if p.2 ∈ s.listeners then { p.1 with isOpen := false } else p.1 := by
  rw [closeListeners, List.mem_mapIdx]
  constructor
  · rintro ⟨i, hi, rfl⟩
    exact ⟨(s.heap[i], i), List.mk_mem_zipIdx_iff_getElem?.mpr (List.getElem?_eq_getElem hi), rfl⟩
  · rintro ⟨⟨k, i⟩, hp, rfl⟩
    obtain ⟨hi, rfl⟩ := List.getElem?_eq_some_iff.mp (List.mk_mem_zipIdx_iff_getElem?.mp hp)
    exact ⟨i, hi, rfl⟩

theorem Trans.owned {s' : Server} {e : Event} (h : Trans cfg s e s') (ho : s.Owned) : s'.Owned := by
  -- an execution that goes on has not gone back to the start
  have goes : ∀ {t : Server} {n : ℕ} {a b : Task}, t.tasks = s.tasks → (∀ l ∈ t.heap, ∃ l' ∈ s.heap, l'.session = l.session) →
      s.tasks[n]? = some a → b ≠ .authenticated → (t.goto n b).Owned := by
    intro t n a b htasks hheap ha hb l hl
    obtain ⟨l', hl', hsame⟩ := hheap l hl
    obtain ⟨c, hc, hne⟩ := ho l' hl'
    by_cases hn : l.session = n
    · refine ⟨b, ?_, hb⟩
      have hlt := (List.getElem?_eq_some_iff.mp ha).1
      simp [goto, htasks, hn, hlt]
    · refine ⟨c, ?_, hne⟩
      rw [← hsame] at hn ⊢
      simp [goto, htasks, hc, Ne.symm hn]
  have same : ∀ l ∈ s.heap, ∃ l' ∈ s.heap, l'.session = l.session := fun l hl => ⟨l, hl, rfl⟩
  cases h with
  | authenticate =>
    intro l hl
    obtain ⟨t, ht, hne⟩ := ho l hl
    exact ⟨t, List.getElem?_append_left (List.getElem?_eq_some_iff.mp ht).1 ▸ ht, hne⟩
  | install ht =>
    refine goes rfl (fun l hl => ?_) ht (by simp)
    obtain ⟨p, hp, rfl⟩ := mem_closeListeners.mp hl
    refine ⟨p.1, List.fst_mem_of_mem_zipIdx hp, ?_⟩
    split_ifs <;> rfl
  | refused ht => exact goes rfl same ht (by simp)
  | @listen n rule rules ht =>
    intro l hl
    rcases List.mem_append.mp hl with hl | hl
    · exact goes rfl same ht (by simp) l hl
    · rw [List.mem_singleton.mp hl]
      refine ⟨.bound s.heap.length rules, ?_, by simp⟩
      have hlt := (List.getElem?_eq_some_iff.mp ht).1
      simp [goto, bind, hlt]
  | append ht => exact goes rfl same ht (by simp)

/-- **What makes a listener stale.** -/
theorem Trans.orderly_iff {s' : Server} {e : Event} (h : Trans cfg s e s') (ho : s.Owned) (hn : ¬ s.Stale) :
    s.Orderly cfg e ↔ ¬ s'.Stale := by
  have hall : ∀ l ∈ s.heap, l.isOpen = true → s.session = some l.session := by
    intro l hl hopen
    by_contra hne
    exact hn ⟨l, hl, hopen, hne⟩
  cases h with
  | authenticate => exact iff_of_true trivial hn
  | @install n ht =>
    have hother : ∀ l ∈ s.heap, l.session ≠ n := by
      rintro l hl rfl
      obtain ⟨t, ht', hne⟩ := ho l hl
      exact hne (Option.some.inj (ht'.symm.trans ht))
    constructor
    · rintro hord ⟨l, hl, hopen, -⟩
      obtain ⟨p, hp, rfl⟩ := mem_closeListeners.mp hl
      split_ifs at hopen with hmem
      exact hmem (hord p hp hopen)
    · intro hns p hp hopen
      by_contra hmem
      have hl : p.1 ∈ s.closeListeners := mem_closeListeners.mpr ⟨p, hp, by rw [if_neg hmem]⟩
      exact hns ⟨p.1, hl, hopen, fun he => hother _ (List.fst_mem_of_mem_zipIdx hp) (Option.some.inj he).symm⟩
  | refused ht hh =>
    refine iff_of_true (fun rule hr => .inr ?_) hn
    simp only [nextRule, ht, Option.mem_def, Option.some.injEq] at hr
    exact hr ▸ hh
  | @listen n rule rules ht hh =>
    simp only [Orderly, nextRule, ht, Option.mem_def, Option.some.injEq, forall_eq', hh, or_false]
    constructor
    · rintro hs ⟨l, hl, hopen, hne⟩
      rcases List.mem_append.mp hl with hl | hl
      · exact hne (hall l hl hopen)
      · rw [List.mem_singleton.mp hl] at hne
        exact hne hs
    · intro hns
      by_contra hne
      exact hns ⟨_, List.mem_append_right _ (List.mem_singleton_self _), rfl, hne⟩
  | append => exact iff_of_true trivial hn

/-! ### What is listened on -/

/-- The execution for the session that is installed has bound its ports, up to those that it
has not tried. -/
def Covers (cfg : ServerConfig α) (s : Server) : Prop :=
  ∀ n, s.session = some n → ∃ t, s.tasks[n]? = some t ∧ ∀ rule ∈ cfg.ports, rule ∈ t.rules ∨ s.Held cfg (listenPort rule)

theorem Held.bind {port : Str} (h : s.Held cfg port) (portRule : Str) (n : ℕ) :
    (s.bind portRule n).Held cfg port := by
  obtain ⟨l, hl, h⟩ := h
  exact ⟨l, List.mem_append_left _ hl, h⟩

theorem Trans.covers {s' : Server} {e : Event} (h : Trans cfg s e s') (hc : Covers cfg s) : Covers cfg s' := by
  -- an execution goes on, and of its rules it drops only those whose ports are held
  have goes : ∀ {t : Server} {n : ℕ} {a b : Task}, t.tasks = s.tasks →
      t.session = s.session → (∀ {port}, s.Held cfg port → t.Held cfg port) → s.tasks[n]? = some a →
      (∀ rule ∈ a.rules, rule ∈ b.rules ∨ t.Held cfg (listenPort rule)) → Covers cfg (t.goto n b) := by
    intro t n a b htasks hsession hheld ha hb m hm
    obtain ⟨c, hct, hcov⟩ := hc m (hsession.symm.trans hm)
    by_cases hmn : m = n
    · subst hmn
      have hlt := (List.getElem?_eq_some_iff.mp ha).1
      refine ⟨b, by simp [goto, htasks, hlt], fun rule hr => ?_⟩
      obtain rfl : c = a := Option.some.inj (hct.symm.trans ha)
      rcases hcov rule hr with hr | hr
      · exact hb rule hr
      · exact .inr (hheld hr)
    · refine ⟨c, by simp [goto, htasks, hct, Ne.symm hmn], fun rule hr => ?_⟩
      exact (hcov rule hr).imp_right hheld
  cases h with
  | authenticate =>
    intro n hn
    obtain ⟨t, ht, hcov⟩ := hc n hn
    exact ⟨t, List.getElem?_append_left (List.getElem?_eq_some_iff.mp ht).1 ▸ ht, hcov⟩
  | @install n ht =>
    intro m hm
    obtain rfl : n = m := Option.some.inj hm
    have hlt := (List.getElem?_eq_some_iff.mp ht).1
    exact ⟨.starting cfg.ports, by simp [goto, hlt], fun rule hr => .inl hr⟩
  | @refused n rule rules ht hh =>
    refine goes rfl rfl id ht fun rule' hr => ?_
    rcases List.mem_cons.mp hr with rfl | hr
    · exact .inr hh
    · exact .inl hr
  | @listen n rule rules ht =>
    refine goes rfl rfl (fun hh => hh.bind rule n) ht fun rule' hr => ?_
    rcases List.mem_cons.mp hr with rfl | hr
    · exact .inr ⟨_, List.mem_append_right _ (List.mem_singleton_self _), rfl, rfl⟩
    · exact .inl hr
  | append ht => exact goes rfl rfl id ht fun rule hr => .inl hr

/-- With no execution in progress every port is listened on. -/
theorem Covers.of_idle (hc : Covers cfg s) (hi : s.Idle) {n : ℕ} (hn : s.session = some n) :
    ∀ rule ∈ cfg.ports, s.Held cfg (listenPort rule) := by
  intro rule hr
  obtain ⟨t, ht, hcov⟩ := hc n hn
  have hover : t = .starting [] := hi t (List.mem_of_getElem? ht)
  rw [hover] at hcov
  exact (hcov rule hr).resolve_left (List.not_mem_nil)

/-- A session is installed once an execution has got that far. -/
def Installed (s : Server) : Prop := ∀ t ∈ s.tasks, t ≠ .authenticated → s.session ≠ none

theorem Trans.installed {s' : Server} {e : Event} (h : Trans cfg s e s') (hi : s.Installed) : s'.Installed := by
  have goes : ∀ {t : Server} {n : ℕ} {a b : Task}, t.tasks = s.tasks → t.session = s.session →
      s.tasks[n]? = some a → a ≠ .authenticated → (t.goto n b).Installed := by
    intro t n a b htasks hsession ha hne c hc hcne
    show t.session ≠ none
    rw [hsession]
    exact hi a (List.mem_of_getElem? ha) hne
  cases h with
  | authenticate =>
    intro t ht hne
    rcases List.mem_append.mp ht with ht | ht
    · exact hi t ht hne
    · exact absurd (List.mem_singleton.mp ht) hne
  | install => exact fun _ _ _ => by simp [goto]
  | refused ht => exact goes rfl rfl ht (by simp)
  | listen ht => exact goes rfl rfl ht (by simp)
  | append ht => exact goes rfl rfl ht (by simp)

variable [DecidableEq α]

/-- **When the listeners follow the session**: in every run, all steps are orderly exactly
when there is never a listener open for a session that was replaced. In such a run, whenever
a client has authenticated and no execution is in progress, every open listener passes its
connections to the session installed last, and every configured port is listened on. -/
theorem orderly_iff_never_stale {es : List Event} (h : exec (step cfg) {} es = some s) :
    (Along (step cfg) (Orderly cfg) {} es ↔
      ∀ pre (t : Server), pre <+: es → exec (step cfg) {} pre = some t → ¬ t.Stale) ∧
    (Along (step cfg) (Orderly cfg) {} es → s.tasks ≠ [] → s.Idle →
      ∃ n, s.session = some n ∧ (∀ l ∈ s.heap, l.isOpen = true → l.session = n) ∧
        ∀ rule ∈ cfg.ports, s.Held cfg (listenPort rule)) := by
  have hiff : Along (step cfg) (Orderly cfg) {} es ↔
      ∀ pre (t : Server), pre <+: es → exec (step cfg) {} pre = some t → ¬ t.Stale :=
    along_iff_never (I := Owned) (fun _ _ _ ho hs => (trans_of_step hs).owned ho)
      (fun _ _ _ ho hn hs => (trans_of_step hs).orderly_iff ho hn) (by simp [Owned]) (by simp [Stale]) h
  refine ⟨hiff, fun ha hsome hi => ?_⟩
  have hcov : Covers cfg s :=
    exec_inv (fun _ _ _ hc hs => (trans_of_step hs).covers hc) (by simp [Covers]) h
  have hinst : Installed s :=
    exec_inv (fun _ _ _ hc hs => (trans_of_step hs).installed hc) (by simp [Installed]) h
  obtain ⟨t, ht⟩ := List.exists_mem_of_ne_nil _ hsome
  have hover : t = .starting [] := hi t ht
  obtain ⟨n, hn⟩ := Option.ne_none_iff_exists'.mp (hinst t ht (by simp [hover]))
  refine ⟨n, hn, fun l hl hopen => ?_, hcov.of_idle hi hn⟩
  by_contra hne
  have hstale : s.Stale := ⟨l, hl, hopen, fun he => hne (Option.some.inj (he.symm.trans hn))⟩
  exact hiff.mp ha es s List.prefix_rfl h hstale

/-! ### Two clients -/

/-- One port, and the addresses are the texts. -/
def sampleServer : ServerConfig (Str) where
  ports := [[0x38, 0x30]]
  addr := id

/-- A client authenticates and gets its session and its listener. -/
def startsRun : List Event := [.authenticate, .install 0, .listen 0, .append 0]

/-- A second client comes after that. -/
def reconnectedRun : List Event := startsRun ++ [.authenticate, .install 1, .listen 1, .append 1]

/-- What is open after `reconnectedRun`. -/
theorem reconnectedRun_listeners : ∃ s, exec (step sampleServer) {} reconnectedRun = some s ∧
    s.heap.length = 2 ∧ ∃ n, s.session = some n ∧ ∀ l ∈ s.heap, l.isOpen = true → l.session = n := by
  have ha : Along (step sampleServer) (Orderly sampleServer) {} reconnectedRun := by decide
  obtain ⟨s, hs, htasks, hi, hlen⟩ := exists_of_any
    (P := fun s : Server => s.tasks ≠ [] ∧ s.Idle ∧ s.heap.length = 2)
    (show (exec (step sampleServer) {} reconnectedRun).any _ = true by decide)
  obtain ⟨n, hn, hall, -⟩ := (orderly_iff_never_stale hs).2 ha htasks hi
  exact ⟨s, hs, hlen, n, hn, hall⟩

/-- The second client comes between the first one's `net.Listen` and its `append`. -/
def overtakenRun : List Event :=
  [.authenticate, .install 0, .listen 0, .authenticate, .install 1, .listen 1, .append 0]

/-- **A listener for a session that is gone**: in `overtakenRun` the port was refused to the
second client, whose session is the one installed; the connections go to the first one's. -/
theorem overtakenRun_stale : ∃ s, exec (step sampleServer) {} overtakenRun = some s ∧ s.tasks ≠ [] ∧ s.Idle ∧
    s.session = some 1 ∧ ∃ l ∈ s.heap, l.isOpen = true ∧ l.session = 0 :=
  exists_of_any (by decide)

end Server

end Hawal.Forward
