import Hawal.Agent.Items
import Hawal.Lib.Counter
import Mathlib.Data.List.Infix
import Mathlib.Algebra.Order.Ring.Int

/-!
# What the agent reports of a tunnel's traffic

`track_and_report_traffic` reads a kernel counter for each process that runs: for the server half of
a Paqet tunnel those of two rules in the raw table of `iptables`, for another process those in
`/proc/<pid>/io`. It keeps the last reading of each tunnel and reports the difference to the one
before.

The baseline moves to the new reading before the report is posted, and a post that fails is
swallowed. So what was counted since the last round is lost with the post. A counter that has
restarted shows a smaller reading; the difference is then negative and nothing is reported, though
the reading itself was counted since the restart. Nothing is ever reported twice. `exact_iff_lossless`
says that these two are all that goes wrong, and when.
-/

namespace Hawal.Agent

open Hawal.Lib Hawal.Lib.Python

/-! ### Readings -/

/-- What is counted. -/
inductive Direction where
  | received
  | sent
  deriving DecidableEq

/-- A reading of both counters. -/
structure Counts where
  received : ℤ
  sent : ℤ
  deriving DecidableEq

/-- One of the two. -/
def Counts.get (c : Counts) : Direction → ℤ
  | .received => c.received
  | .sent => c.sent

/-- What the kernel tells in one round. -/
structure Machine where
  /-- The lines of `/proc/<pid>/io`, when it can be read. -/
  io : ℕ → Option (List Str)
  /-- The lines of `iptables -t raw -nvxL <chain>`, asked for a tunnel, when it succeeds. -/
  listing : Str → Str → Option (List Str)
  /-- The counters of the kernel are printed without a sign. -/
  unsigned : ∀ pid lines, io pid = some lines → ∀ l ∈ lines, 45 ∉ l

/-- `int(l.split(":")[1].strip())`. -/
def ioValue (l : Str) : Option ℤ := (after 58 l).bind fun rest => parseInt (strip (before 58 rest))

/-- The loop over the lines of `/proc/<pid>/io`; `none` when a number cannot be read. -/
def ioLine (c : Counts) (l : Str) : Option Counts :=
  if (str "read_bytes:").isPrefixOf l then (ioValue l).map fun n => { c with received := n }
  else if (str "write_bytes:").isPrefixOf l then (ioValue l).map fun n => { c with sent := n }
  else if (str "rchar:").isPrefixOf l && decide (c.received = 0) then
    (ioValue l).map fun n => { c with received := n }
  else if (str "wchar:").isPrefixOf l && decide (c.sent = 0) then
    (ioValue l).map fun n => { c with sent := n }
  else some c

/-- The two numbers of `/proc/<pid>/io`. -/
def ioBytes (lines : List Str) : Option Counts := lines.foldlM ioLine ⟨0, 0⟩

/-- Digits that are not decimal, such as superscripts. -/
def otherDigits : List (ℕ × ℕ) :=
  [(0xB2, 0xB3), (0xB9, 0xB9), (0x1369, 0x1371), (0x19DA, 0x19DA), (0x2070, 0x2070), (0x2074, 0x2079),
    (0x2080, 0x2089), (0x2460, 0x2468), (0x2474, 0x247C), (0x2488, 0x2490), (0x24EA, 0x24EA),
    (0x24F5, 0x24FD), (0x24FF, 0x24FF), (0x2776, 0x277E), (0x2780, 0x2788), (0x278A, 0x2792),
    (0x10A40, 0x10A43), (0x10E60, 0x10E68), (0x11052, 0x1105A), (0x1F100, 0x1F10A)]

/-- `c.isdigit()` of one code point. -/
def isDigitChar (c : ℕ) : Bool :=
  (digitValue c).isSome || otherDigits.any fun range => range.1 ≤ c && c ≤ range.2

/-- `s.isdigit()`. -/
def isDigits (s : Str) : Bool := !s.isEmpty && s.all isDigitChar

/-- `line.split()`. -/
def columns (line : Str) : List Str := (line.splitOnP isSpace).filter fun word => !word.isEmpty

/-- The byte counter of a line of the listing; `none` when the line is passed over. -/
def lineBytes (needle line : Str) : Option Str :=
  if needle <:+: line ∧ str "NOTRACK" <:+: line then
    match columns line with
    | packets :: bytes :: _ => if isDigits packets && isDigits bytes then some bytes else none
    | _ => none
  else none

/-- `_iptables_bytes`, for the listing of the chain; `none` when it raises. -/
def iptablesBytes (listing : Option (List Str)) (displayKind : Str) (port : ℤ) : Option ℤ :=
  listing.bind fun lines =>
    (lines.findSome? (lineBytes (displayKind ++ str ":" ++ decimal port))).bind parseInt

/-- Where a tunnel's traffic is counted. -/
inductive Meter where
  /-- The raw table. -/
  | paqet
  /-- `/proc/<pid>/io`. -/
  | io
  deriving DecidableEq

/-- The counters that are read for a tunnel's process, and what they show; `none` when the process
does not run, is the client half of a Paqet tunnel, or reading raises. -/
def reading (m : Machine) (s : HawalAgent) (tun : Str) (pid : ℕ) : Option (Meter × Counts) :=
  if pid ∈ s.alive then
    match s.metadata.lookup tun with
    | some (.paqet role corePort) =>
      if role = str "server" then do
        let received ← iptablesBytes (m.listing tun (str "PREROUTING")) (str "dpt") corePort
        let sent ← iptablesBytes (m.listing tun (str "OUTPUT")) (str "spt") corePort
        some (.paqet, ⟨received, sent⟩)
      else none
    | _ => do
      let lines ← m.io pid
      let counts ← ioBytes lines
      some (.io, counts)
  else none

/-! ### A round -/

/-- The last reading of each tunnel. -/
structure Baselines where
  lastPaqetTraffic : Dict Counts
  lastIo : Dict Counts

namespace Baselines

/-- Of one of the two meters. -/
def get (b : Baselines) : Meter → Dict Counts
  | .paqet => b.lastPaqetTraffic
  | .io => b.lastIo

/-- The new reading is kept. -/
def set (b : Baselines) (tun : Str) (c : Counts) : Meter → Baselines
  | .paqet => { b with lastPaqetTraffic := b.lastPaqetTraffic.insert tun c }
  | .io => { b with lastIo := b.lastIo.insert tun c }

end Baselines

/-- An element of the reports that are posted. -/
structure Report where
  tunnelId : Str
  bytes : Counts

/-- The differences to the last reading; a first reading has none. -/
def delta (last : Option Counts) (now : Counts) : Counts :=
  let last := last.getD now
  ⟨max 0 (now.received - last.received), max 0 (now.sent - last.sent)⟩

/-- The loop of `track_and_report_traffic` for one process. -/
def visit (m : Machine) (s : HawalAgent) (acc : Baselines × List Report) (tun : Str) (pid : ℕ) :
    Baselines × List Report :=
  match reading m s tun pid with
  | none => acc
  | some (meter, now) =>
    let d := delta ((acc.1.get meter).lookup tun) now
    (acc.1.set tun now meter, if d.received ≠ 0 ∨ d.sent ≠ 0 then acc.2 ++ [⟨tun, d⟩] else acc.2)

/-- The processes in the order in which they were started. -/
def watched (s : HawalAgent) : List (Σ _ : Str, ℕ) := s.processes.entries.reverse

/-- `track_and_report_traffic` up to the post: the baselines, and what is posted. -/
def track (m : Machine) (s : HawalAgent) (b : Baselines) : Baselines × List Report :=
  (watched s).foldl (fun acc e => visit m s acc e.1 e.2) (b, [])

/-- The readings of a round. -/
def taken (m : Machine) (s : HawalAgent) : List (Str × Meter × Counts) :=
  (watched s).filterMap fun e => (reading m s e.1 e.2).map fun r => (e.1, r)

/-! ### The numbers are not negative -/

theorem parseDigits_nonneg {s : Str} {n : ℤ} (h : (parseDigits false 0 s).map (fun n => (n : ℤ)) = some n) :
    0 ≤ n := by
  obtain ⟨k, hk, rfl⟩ := Option.map_eq_some_iff.mp h
  obtain ⟨digits, -, hdigits⟩ := Option.bind_eq_some_iff.mp hk
  cases hdigits
  exact Int.natCast_nonneg digits

theorem mem_of_mem_stripBy {p : ℕ → Bool} {s : Str} {c : ℕ} (h : c ∈ stripBy p s) : c ∈ s :=
  (List.dropWhile_suffix p).subset ((List.rdropWhile_prefix p _).subset h)

/-- A number without a sign is not negative. -/
theorem parseInt_nonneg {s : Str} {n : ℤ} (hs : 45 ∉ s) (h : parseInt s = some n) : 0 ≤ n := by
  unfold parseInt at h
  dsimp only at h
  generalize ht : stripBy (if s.all fun c => decide (c < 128) then isAsciiSpace else isSpace) s = t at h
  have hmem : 45 ∉ t := fun hc => hs (mem_of_mem_stripBy (ht ▸ hc))
  split at h
  · cases h
  split at h
  · exact absurd List.mem_cons_self hmem
  · exact parseDigits_nonneg h
  · exact parseDigits_nonneg h

theorem ioValue_nonneg {l : Str} {n : ℤ} (hl : 45 ∉ l) (h : ioValue l = some n) : 0 ≤ n := by
  obtain ⟨rest, hrest, hn⟩ := Option.bind_eq_some_iff.mp h
  refine parseInt_nonneg (fun hc => hl ?_) hn
  have hbefore : 45 ∈ before 58 rest := mem_of_mem_stripBy hc
  have hmem : 45 ∈ rest := (List.takeWhile_prefix _).subset hbefore
  unfold after at hrest
  split at hrest
  · cases hrest
  · rename_i c rest' hdrop
    cases hrest
    exact (List.dropWhile_suffix _).subset (hdrop ▸ List.mem_cons_of_mem c hmem)

/-- Neither of the two is negative. -/
def Counts.Nonneg (c : Counts) : Prop := ∀ d, 0 ≤ c.get d

theorem ioLine_nonneg {c c' : Counts} {l : Str} (hc : c.Nonneg) (hl : 45 ∉ l) (h : ioLine c l = some c') :
    c'.Nonneg := by
  have hset : ∀ {f : ℤ → Counts}, (∀ n d, 0 ≤ n → 0 ≤ (f n).get d) → (ioValue l).map f = some c' → c'.Nonneg := by
    intro f hf hmap d
    obtain ⟨n, hn, rfl⟩ := Option.map_eq_some_iff.mp hmap
    exact hf n d (ioValue_nonneg hl hn)
  have hreceived : ∀ n d, 0 ≤ n → 0 ≤ ({ c with received := n } : Counts).get d := by
    intro n d hn
    cases d with
    | received => exact hn
    | sent => exact hc .sent
  have hsent : ∀ n d, 0 ≤ n → 0 ≤ ({ c with sent := n } : Counts).get d := by
    intro n d hn
    cases d with
    | received => exact hc .received
    | sent => exact hn
  unfold ioLine at h
  split at h
  · exact hset hreceived h
  split at h
  · exact hset hsent h
  split at h
  · exact hset hreceived h
  split at h
  · exact hset hsent h
  · cases h
    exact hc

theorem foldlM_ioLine_nonneg {lines : List Str} (hlines : ∀ l ∈ lines, 45 ∉ l) :
    ∀ {c c' : Counts}, c.Nonneg → lines.foldlM ioLine c = some c' → c'.Nonneg := by
  induction lines with
  | nil =>
    intro c c' hc h
    cases h
    exact hc
  | cons l lines ih =>
    intro c c' hc h
    rw [List.foldlM_cons] at h
    obtain ⟨c₁, h₁, h₂⟩ := Option.bind_eq_some_iff.mp h
    have hc₁ : c₁.Nonneg := ioLine_nonneg hc (hlines l List.mem_cons_self) h₁
    exact ih (fun l hl => hlines l (List.mem_cons_of_mem _ hl)) hc₁ h₂

theorem isDigits_no_sign {s : Str} (h : isDigits s = true) : 45 ∉ s := by
  intro hc
  unfold isDigits at h
  rw [Bool.and_eq_true, List.all_eq_true] at h
  exact absurd (h.2 45 hc) (by decide)

theorem iptablesBytes_nonneg {listing : Option (List Str)} {kind : Str} {port n : ℤ}
    (h : iptablesBytes listing kind port = some n) : 0 ≤ n := by
  obtain ⟨lines, -, h⟩ := Option.bind_eq_some_iff.mp h
  obtain ⟨bytes, hbytes, hn⟩ := Option.bind_eq_some_iff.mp h
  obtain ⟨line, -, hline⟩ := List.exists_of_findSome?_eq_some hbytes
  refine parseInt_nonneg ?_ hn
  unfold lineBytes at hline
  split at hline
  · split at hline
    · split at hline
      · rename_i hdigits
        cases hline
        rw [Bool.and_eq_true] at hdigits
        exact isDigits_no_sign hdigits.2
      · cases hline
    · cases hline
  · cases hline

/-- What a reading shows is not negative. -/
theorem reading_nonneg {m : Machine} {s : HawalAgent} {tun : Str} {pid : ℕ} {meter : Meter} {c : Counts}
    (h : reading m s tun pid = some (meter, c)) : c.Nonneg := by
  unfold reading at h
  split at h
  · split at h
    · split at h
      · obtain ⟨received, hreceived, h⟩ := Option.bind_eq_some_iff.mp h
        obtain ⟨sent, hsent, h⟩ := Option.bind_eq_some_iff.mp h
        cases h
        intro d
        cases d with
        | received => exact iptablesBytes_nonneg hreceived
        | sent => exact iptablesBytes_nonneg hsent
      · cases h
    · obtain ⟨lines, hlines, h⟩ := Option.bind_eq_some_iff.mp h
      obtain ⟨counts, hcounts, h⟩ := Option.bind_eq_some_iff.mp h
      cases h
      refine foldlM_ioLine_nonneg (m.unsigned pid lines hlines) ?_ hcounts
      intro d
      cases d <;> exact le_refl 0
  · cases h

/-! ### What a round does for one tunnel -/

theorem Baselines.lookup_set (b : Baselines) (tun tun' : Str) (c : Counts) (meter meter' : Meter) :
    ((b.set tun' c meter').get meter).lookup tun =
      if tun = tun' ∧ meter = meter' then some c else (b.get meter).lookup tun := by
  cases meter' <;> cases meter <;> simp [Baselines.set, Baselines.get, lookup_insert_ite]

/-- What reports say of a tunnel. -/
def credit (tun : Str) (d : Direction) (reports : List Report) : ℤ :=
  ((reports.filter fun r => decide (r.tunnelId = tun)).map fun r => r.bytes.get d).sum

/-- The readings of a tunnel by one of the meters. -/
def counts (tun : Str) (meter : Meter) (d : Direction) (readings : List (Str × Meter × Counts)) : List ℤ :=
  (readings.filter fun r => decide (r.1 = tun ∧ r.2.1 = meter)).map fun r => r.2.2.get d

theorem credit_append (tun : Str) (d : Direction) (xs ys : List Report) :
    credit tun d (xs ++ ys) = credit tun d xs + credit tun d ys := by
  simp only [credit, List.filter_append, List.map_append, List.sum_append]

theorem counts_append (tun : Str) (meter : Meter) (d : Direction) (xs ys : List (Str × Meter × Counts)) :
    counts tun meter d (xs ++ ys) = counts tun meter d xs ++ counts tun meter d ys := by
  simp only [counts, List.filter_append, List.map_append]

theorem counts_cons (tun : Str) (meter : Meter) (d : Direction) (r : Str × Meter × Counts)
    (rs : List (Str × Meter × Counts)) :
    counts tun meter d (r :: rs) =
      if r.1 = tun ∧ r.2.1 = meter then r.2.2.get d :: counts tun meter d rs else counts tun meter d rs := by
  simp only [counts, List.filter_cons, decide_eq_true_eq]
  split <;> rfl

theorem credit_of_forall_ne {tun : Str} {reports : List Report} (h : ∀ r ∈ reports, r.tunnelId ≠ tun)
    (d : Direction) : credit tun d reports = 0 := by
  have hnone : (reports.filter fun r => decide (r.tunnelId = tun)) = [] := by
    simpa using h
  rw [credit, hnone]
  rfl

/-- One process leaves the baseline and the reports of another tunnel alone. -/
theorem visit_other {m : Machine} {s : HawalAgent} {acc : Baselines × List Report} {tun tun' : Str} {pid : ℕ}
    (h : tun ≠ tun') (meter : Meter) (d : Direction) :
    ((visit m s acc tun' pid).1.get meter).lookup tun = (acc.1.get meter).lookup tun ∧
      credit tun d (visit m s acc tun' pid).2 = credit tun d acc.2 := by
  unfold visit
  split
  · exact ⟨rfl, rfl⟩
  · refine ⟨?_, ?_⟩
    · rw [Baselines.lookup_set, if_neg fun heq => h heq.1]
    · dsimp only
      split
      · have hzero : ∀ bytes, credit tun d [⟨tun', bytes⟩] = 0 := by
          intro bytes
          exact credit_of_forall_ne (fun r hr => by rw [List.mem_singleton.mp hr]; exact h.symm) d
        rw [credit_append, hzero, add_zero]
      · rfl

/-- The processes of other tunnels leave a tunnel alone. -/
theorem foldl_visit_other {m : Machine} {s : HawalAgent} {tun : Str} (meter : Meter) (d : Direction) :
    ∀ (es : List (Σ _ : Str, ℕ)), (∀ e ∈ es, tun ≠ e.1) → ∀ acc : Baselines × List Report,
      ((es.foldl (fun acc e => visit m s acc e.1 e.2) acc).1.get meter).lookup tun = (acc.1.get meter).lookup tun ∧
        credit tun d (es.foldl (fun acc e => visit m s acc e.1 e.2) acc).2 = credit tun d acc.2 := by
  intro es
  induction es with
  | nil => exact fun _ acc => ⟨rfl, rfl⟩
  | cons e es ih =>
    intro hne acc
    obtain ⟨hb, hc⟩ := ih (fun e' he => hne e' (List.mem_cons_of_mem _ he)) (visit m s acc e.1 e.2)
    obtain ⟨hb', hc'⟩ := visit_other (hne e List.mem_cons_self) meter d
    exact ⟨hb.trans hb', hc.trans hc'⟩

/-- The reading of a tunnel in a round. -/
def readingOf (m : Machine) (s : HawalAgent) (tun : Str) : Option (Meter × Counts) :=
  (s.processes.lookup tun).bind (reading m s tun)

/-- Without a reading a round does nothing for a tunnel. -/
structure Skipped (m : Machine) (s : HawalAgent) (b : Baselines) (tun : Str) : Prop where
  baseline : ∀ meter, ((track m s b).1.get meter).lookup tun = (b.get meter).lookup tun
  taken : ∀ meter d, counts tun meter d (taken m s) = []
  credit : ∀ d, credit tun d (track m s b).2 = 0

/-- With a reading, the baseline moves to it and the difference is reported. -/
structure Measured (m : Machine) (s : HawalAgent) (b : Baselines) (tun : Str) (meter : Meter) (now : Counts) :
    Prop where
  baseline : ∀ meter', ((track m s b).1.get meter').lookup tun =
    if meter' = meter then some now else (b.get meter').lookup tun
  taken : ∀ meter' d, counts tun meter' d (taken m s) = if meter' = meter then [now.get d] else []
  credit : ∀ d, credit tun d (track m s b).2 = (delta ((b.get meter).lookup tun) now).get d

/-- A tunnel is watched once, or not at all. -/
theorem watched_cases (s : HawalAgent) (tun : Str) :
    (s.processes.lookup tun = none ∧ ∀ e ∈ watched s, tun ≠ e.1) ∨
      ∃ pid es es', s.processes.lookup tun = some pid ∧ watched s = es ++ ⟨tun, pid⟩ :: es' ∧
        (∀ e ∈ es, tun ≠ e.1) ∧ ∀ e ∈ es', tun ≠ e.1 := by
  cases hpid : s.processes.lookup tun with
  | none =>
    refine .inl ⟨rfl, fun e he htun => ?_⟩
    have hmem : tun ∈ s.processes := by
      rw [AList.mem_keys, AList.keys, htun]
      exact List.mem_map_of_mem (List.mem_reverse.mp he)
    exact AList.lookup_eq_none.mp hpid hmem
  | some pid =>
    have hmem : (⟨tun, pid⟩ : Σ _ : Str, ℕ) ∈ watched s :=
      List.mem_reverse.mpr (AList.mem_lookup_iff.mp hpid)
    obtain ⟨es, es', hsplit⟩ := List.append_of_mem hmem
    have hnodup : ((watched s).map Sigma.fst).Nodup := by
      rw [watched, List.map_reverse, List.nodup_reverse]
      exact s.processes.nodupKeys
    rw [hsplit, List.map_append, List.map_cons, List.nodup_middle, List.nodup_cons, List.mem_append] at hnodup
    have hne : ∀ es₀ : List (Σ _ : Str, ℕ), tun ∉ es₀.map Sigma.fst → ∀ e ∈ es₀, tun ≠ e.1 := by
      rintro es₀ hnot e he rfl
      exact hnot (List.mem_map_of_mem he)
    exact .inr ⟨pid, es, es', rfl, hsplit, hne es fun h => hnodup.1 (.inl h), hne es' fun h => hnodup.1 (.inr h)⟩

theorem counts_taken_other {m : Machine} {s : HawalAgent} {tun : Str} (meter : Meter) (d : Direction)
    {es : List (Σ _ : Str, ℕ)} (h : ∀ e ∈ es, tun ≠ e.1) :
    counts tun meter d (es.filterMap fun e => (reading m s e.1 e.2).map fun r => (e.1, r)) = [] := by
  rw [counts, List.map_eq_nil_iff, List.filter_eq_nil_iff]
  intro r hr
  obtain ⟨e, he, hre⟩ := List.mem_filterMap.mp hr
  obtain ⟨r', -, rfl⟩ := Option.map_eq_some_iff.mp hre
  simp [(h e he).symm]

theorem track_of_none {m : Machine} {s : HawalAgent} {tun : Str} (h : readingOf m s tun = none) (b : Baselines) :
    Skipped m s b tun := by
  rcases watched_cases s tun with ⟨-, hne⟩ | ⟨pid, es, es', hpid, hsplit, hes, hes'⟩
  · constructor
    · exact fun meter => (foldl_visit_other meter .sent (watched s) hne (b, [])).1
    · exact fun meter d => counts_taken_other meter d hne
    · exact fun d => (foldl_visit_other .io d (watched s) hne (b, [])).2
  · rw [readingOf, hpid, Option.bind_some] at h
    have hvisit : ∀ acc, visit m s acc tun pid = acc := by
      intro acc
      rw [visit, h]
    constructor
    · intro meter
      rw [track, hsplit, List.foldl_append, List.foldl_cons, hvisit]
      exact (foldl_visit_other meter .sent es' hes' _).1.trans (foldl_visit_other meter .sent es hes (b, [])).1
    · intro meter d
      rw [taken, hsplit, List.filterMap_append, List.filterMap_cons, h, Option.map_none, counts_append,
        counts_taken_other meter d hes, counts_taken_other meter d hes', List.append_nil]
    · intro d
      rw [track, hsplit, List.foldl_append, List.foldl_cons, hvisit]
      exact (foldl_visit_other .io d es' hes' _).2.trans (foldl_visit_other .io d es hes (b, [])).2

theorem track_of_some {m : Machine} {s : HawalAgent} {tun : Str} {meter : Meter} {now : Counts}
    (h : readingOf m s tun = some (meter, now)) (b : Baselines) : Measured m s b tun meter now := by
  rcases watched_cases s tun with ⟨hnone, -⟩ | ⟨pid, es, es', hpid, hsplit, hes, hes'⟩
  · rw [readingOf, hnone] at h
    cases h
  · rw [readingOf, hpid, Option.bind_some] at h
    constructor
    · intro meter'
      rw [track, hsplit, List.foldl_append, List.foldl_cons, (foldl_visit_other meter' .sent es' hes' _).1, visit, h]
      dsimp only
      rw [Baselines.lookup_set, (foldl_visit_other meter' .sent es hes (b, [])).1]
      simp only [true_and]
    · intro meter' d
      rw [taken, hsplit, List.filterMap_append, List.filterMap_cons, h, Option.map_some]
      dsimp only
      rw [counts_append, counts_taken_other meter' d hes, List.nil_append, counts_cons,
        counts_taken_other meter' d hes']
      simp only [true_and, eq_comm]
    · intro d
      rw [track, hsplit, List.foldl_append, List.foldl_cons, (foldl_visit_other .io d es' hes' _).2, visit, h]
      dsimp only
      rw [(foldl_visit_other meter .sent es hes (b, [])).1]
      have hbefore : credit tun d (es.foldl (fun acc e => visit m s acc e.1 e.2) (b, [])).2 = 0 :=
        (foldl_visit_other .io d es hes (b, [])).2
      split
      · rw [credit_append, hbefore, zero_add]
        simp [credit]
      · rename_i hzero
        rw [hbefore]
        cases d <;> simp_all [Counts.get]

/-! ### Runs -/

/-- The agent with its baselines, the readings it has taken, the newest first, and the reports that
the panel has accepted. -/
structure Ledger where
  agent : HawalAgent
  baselines : Baselines
  readings : List (Str × Meter × Counts)
  accepted : List Report

/-- Before the first round. -/
def Ledger.start (s : HawalAgent) : Ledger :=
  { agent := s, baselines := ⟨∅, ∅⟩, readings := [], accepted := [] }

/-- What happens next. -/
inductive Turn where
  /-- Tunnels are synced, or processes end. -/
  | agent (e : Event)
  /-- A round, and whether its post succeeds. -/
  | round (m : Machine) (posted : Bool)

variable (dumps : List Str → Str)

/-- One turn. A round without reports posts nothing, so that `posted` does not matter there. -/
def ledgerStep (s : Ledger) : Turn → Option Ledger
  | .agent e => (agentStep dumps s.agent e).map fun a => { s with agent := a }
  | .round m posted =>
    let tracked := track m s.agent s.baselines
    some
      { s with
        baselines := tracked.1
        readings := taken m s.agent ++ s.readings
        accepted := if posted then tracked.2 ++ s.accepted else s.accepted }

/-- What the readings say was counted for a tunnel. -/
def Ledger.counted (s : Ledger) (tun : Str) (d : Direction) : ℤ :=
  total (counts tun .paqet d s.readings) + total (counts tun .io d s.readings)

/-- The panel has accepted what the readings say was counted. -/
def Ledger.Exact (s : Ledger) (tun : Str) : Prop := ∀ d, credit tun d s.accepted = s.counted tun d

/-- Nothing is lost of what was counted between two readings: the counter has not counted since a
restart, and what it has counted otherwise is not in a failed post. -/
def Kept (posted : Bool) (last now : ℤ) : Prop := (now < last → now = 0) ∧ (last < now → posted = true)

instance (posted : Bool) (last now : ℤ) : Decidable (Kept posted last now) :=
  inferInstanceAs (Decidable (_ ∧ _))

instance (s : Ledger) (tun : Str) : Decidable (s.Exact tun) :=
  decidable_of_iff (credit tun .received s.accepted = s.counted tun .received ∧
      credit tun .sent s.accepted = s.counted tun .sent)
    ⟨fun h d => by cases d <;> simp only [h], fun h => ⟨h .received, h .sent⟩⟩

/-- A turn in which nothing of a tunnel's traffic is lost. -/
def Lossless (tun : Str) (s : Ledger) : Turn → Prop
  | .agent _ => True
  | .round m posted =>
    match readingOf m s.agent tun with
    | none => True
    | some (meter, now) =>
      match (s.baselines.get meter).lookup tun with
      | none => True
      | some last => Kept posted last.received now.received ∧ Kept posted last.sent now.sent

instance decidableLossless (tun : Str) (s : Ledger) : (turn : Turn) → Decidable (Lossless tun s turn)
  | .agent _ => isTrue trivial
  | .round m posted =>
    match hr : readingOf m s.agent tun with
    | none => isTrue (by simp only [Lossless, hr])
    | some (meter, now) =>
      match hb : (s.baselines.get meter).lookup tun with
      | none => isTrue (by simp only [Lossless, hr, hb])
      | some last =>
        decidable_of_iff (Kept posted last.received now.received ∧ Kept posted last.sent now.sent)
          (by simp only [Lossless, hr, hb])

/-- The baselines are the last readings. -/
def Tied (tun : Str) (s : Ledger) : Prop :=
  ∀ meter d, ((s.baselines.get meter).lookup tun).map (fun c => c.get d) = (counts tun meter d s.readings).head?

/-- What is missing at the panel. -/
def Ledger.missing (s : Ledger) (tun : Str) (d : Direction) : ℤ := s.counted tun d - credit tun d s.accepted

theorem exact_iff_missing {s : Ledger} {tun : Str} : s.Exact tun ↔ ∀ d, s.missing tun d = 0 := by
  unfold Ledger.Exact Ledger.missing
  constructor
  · intro h d
    rw [h d, sub_self]
  · intro h d
    have hd := h d
    omega

theorem delta_none (now : Counts) (d : Direction) : (delta none now).get d = 0 := by
  cases d <;> simp [delta, Counts.get]

theorem delta_some (last now : Counts) (d : Direction) :
    (delta (some last) now).get d = advance (last.get d) (now.get d) := by
  cases d <;> rfl

/-- What was counted since the last reading. -/
def sinceLast (s : Ledger) (tun : Str) (meter : Meter) (now : Counts) (d : Direction) : ℤ :=
  ((s.baselines.get meter).lookup tun).elim 0 fun last => grown (last.get d) (now.get d)

/-- What one round adds to what is missing. -/
def lost (s : Ledger) (m : Machine) (posted : Bool) (tun : Str) (d : Direction) : ℤ :=
  match readingOf m s.agent tun with
  | none => 0
  | some (meter, now) =>
    match (s.baselines.get meter).lookup tun with
    | none => 0
    | some last => grown (last.get d) (now.get d) - passed posted (last.get d) (now.get d)

variable {dumps}

/-- What is counted grows by what was counted since the last reading. -/
theorem total_counts_cons {tun : Str} {s : Ledger} (hs : Tied tun s) (meter : Meter) (now : Counts) (d : Direction) :
    total (now.get d :: counts tun meter d s.readings) =
      sinceLast s tun meter now d + total (counts tun meter d s.readings) := by
  have hlast := hs meter d
  unfold sinceLast
  cases hb : (s.baselines.get meter).lookup tun with
  | none =>
    rw [hb, Option.map_none] at hlast
    rw [List.head?_eq_none_iff.mp hlast.symm]
    rfl
  | some last =>
    rw [hb, Option.map_some] at hlast
    exact total_cons hlast.symm _

/-- The readings of a tunnel after a round that measures it. -/
theorem counts_of_measured {m : Machine} {s : Ledger} {tun : Str} {meter : Meter} {now : Counts}
    (hm : Measured m s.agent s.baselines tun meter now) (meter' : Meter) (d : Direction) :
    counts tun meter' d (taken m s.agent ++ s.readings) =
      if meter' = meter then now.get d :: counts tun meter' d s.readings
      else counts tun meter' d s.readings := by
  rw [counts_append, hm.taken]
  split <;> rfl

/-- What has then been counted. -/
theorem counted_of_measured {m : Machine} {s : Ledger} {tun : Str} {meter : Meter} {now : Counts}
    (hm : Measured m s.agent s.baselines tun meter now) (hs : Tied tun s) (d : Direction) :
    total (counts tun .paqet d (taken m s.agent ++ s.readings)) + total (counts tun .io d (taken m s.agent ++ s.readings)) =
      sinceLast s tun meter now d + s.counted tun d := by
  rw [counts_of_measured hm, counts_of_measured hm, Ledger.counted]
  cases meter with
  | paqet =>
    rw [if_pos rfl, if_neg (by decide), total_counts_cons hs]
    omega
  | io =>
    rw [if_neg (by decide), if_pos rfl, total_counts_cons hs]
    omega

/-- What has then been reported. -/
theorem credit_of_measured {m : Machine} {s : Ledger} {tun : Str} {meter : Meter} {now : Counts}
    (hm : Measured m s.agent s.baselines tun meter now) (posted : Bool) (d : Direction) :
    credit tun d (if posted then (track m s.agent s.baselines).2 ++ s.accepted else s.accepted) =
      (if posted then (delta ((s.baselines.get meter).lookup tun) now).get d else 0) +
        credit tun d s.accepted := by
  split
  · rw [credit_append, hm.credit]
  · rw [zero_add]

/-- **A round**: the baselines are the last readings again, and what is missing grows by what is lost. -/
theorem ledgerStep_round {s s' : Ledger} {m : Machine} {posted : Bool} {tun : Str} (hs : Tied tun s)
    (h : ledgerStep dumps s (.round m posted) = some s') :
    Tied tun s' ∧ ∀ d, s'.missing tun d = s.missing tun d + lost s m posted tun d := by
  cases h
  cases hr : readingOf m s.agent tun with
  | none =>
    have hskip : Skipped m s.agent s.baselines tun := track_of_none hr s.baselines
    have hcounts : ∀ meter d, counts tun meter d (taken m s.agent ++ s.readings) = counts tun meter d s.readings := by
      intro meter d
      rw [counts_append, hskip.taken, List.nil_append]
    refine ⟨fun meter d => ?_, fun d => ?_⟩
    · rw [hskip.baseline, hcounts]
      exact hs meter d
    · simp only [Ledger.missing, Ledger.counted, lost, hr, hcounts]
      cases posted with
      | false => simp
      | true => simp [credit_append, hskip.credit]
  | some r =>
    obtain ⟨meter, now⟩ := r
    have hm : Measured m s.agent s.baselines tun meter now := track_of_some hr s.baselines
    refine ⟨fun meter' d => ?_, fun d => ?_⟩
    · rw [hm.baseline, counts_of_measured hm]
      split
      · rfl
      · exact hs meter' d
    · simp only [Ledger.missing, lost, hr]
      rw [credit_of_measured hm]
      show total _ + total _ - _ = _
      rw [counted_of_measured hm hs, sinceLast]
      cases (s.baselines.get meter).lookup tun with
      | none =>
        simp only [delta_none, ite_self, Option.elim_none]
        omega
      | some last =>
        simp only [delta_some, passed, Option.elim_some]
        omega

theorem lost_nonneg (s : Ledger) (m : Machine) (posted : Bool) (tun : Str) (d : Direction) :
    0 ≤ lost s m posted tun d := by
  unfold lost
  split
  · exact le_refl 0
  · rename_i meter now hr
    obtain ⟨pid, -, hpid⟩ := Option.bind_eq_some_iff.mp hr
    split
    · exact le_refl 0
    · exact Int.sub_nonneg.mpr (passed_le_grown posted (reading_nonneg hpid d))

/-- A lossless round is one in which nothing is lost. -/
theorem lossless_iff_lost {s : Ledger} {m : Machine} {posted : Bool} {tun : Str} :
    Lossless tun s (.round m posted) ↔ ∀ d, lost s m posted tun d = 0 := by
  cases hr : readingOf m s.agent tun with
  | none =>
    simp only [Lossless, lost, hr]
    exact iff_of_true trivial fun _ => trivial
  | some r =>
    obtain ⟨meter, now⟩ := r
    cases hb : (s.baselines.get meter).lookup tun with
    | none =>
      simp only [Lossless, lost, hr, hb]
      exact iff_of_true trivial fun _ => trivial
    | some last =>
      have hlost : ∀ d, lost s m posted tun d = 0 ↔ Kept posted (last.get d) (now.get d) := by
        intro d
        simp only [lost, hr, hb]
        rw [Int.sub_eq_zero, eq_comm, passed_eq_grown_iff]
        exact Iff.rfl
      simp only [hlost, Lossless, hr, hb]
      constructor
      · rintro ⟨hreceived, hsent⟩ d
        cases d with
        | received => exact hreceived
        | sent => exact hsent
      · exact fun h => ⟨h .received, h .sent⟩

/-- One turn. -/
theorem ledgerStep_missing {s s' : Ledger} {turn : Turn} {tun : Str} (hs : Tied tun s)
    (h : ledgerStep dumps s turn = some s') :
    Tied tun s' ∧ (∀ d, s.missing tun d ≤ s'.missing tun d) ∧
      (Lossless tun s turn ↔ ∀ d, s'.missing tun d = s.missing tun d) := by
  cases turn with
  | agent e =>
    obtain ⟨a, -, rfl⟩ := Option.map_eq_some_iff.mp h
    exact ⟨hs, fun d => le_refl _, iff_of_true trivial fun _ => rfl⟩
  | round m posted =>
    obtain ⟨htied, hmissing⟩ := ledgerStep_round hs h
    refine ⟨htied, fun d => ?_, lossless_iff_lost.trans (forall_congr' fun d => ?_)⟩
    · have := lost_nonneg s m posted tun d
      have := hmissing d
      omega
    · have := hmissing d
      omega

theorem tied_start (s : HawalAgent) (tun : Str) : Tied tun (Ledger.start s) := by
  intro meter d
  cases meter <;> rfl

theorem missing_start (s : HawalAgent) (tun : Str) (d : Direction) : (Ledger.start s).missing tun d = 0 := rfl

/-- What is missing never becomes less. -/
theorem missing_nonneg {s s' : Ledger} {turns : List Turn} {tun : Str} (hs : Tied tun s ∧ ∀ d, 0 ≤ s.missing tun d)
    (h : exec (ledgerStep dumps) s turns = some s') : Tied tun s' ∧ ∀ d, 0 ≤ s'.missing tun d := by
  refine exec_inv (I := fun s => Tied tun s ∧ ∀ d, 0 ≤ s.missing tun d) ?_ hs h
  rintro s turn s' ⟨htied, hnonneg⟩ hstep
  obtain ⟨htied', hle, -⟩ := ledgerStep_missing htied hstep
  exact ⟨htied', fun d => (hnonneg d).trans (hle d)⟩

/-- **When the accounting of a tunnel is exact**: after any run, the panel has accepted what the
readings say was counted exactly if nothing was lost in any round. -/
theorem exact_iff_lossless {s : HawalAgent} {l : Ledger} {turns : List Turn} (tun : Str)
    (h : exec (ledgerStep dumps) (Ledger.start s) turns = some l) :
    l.Exact tun ↔ Along (ledgerStep dumps) (Lossless tun) (Ledger.start s) turns := by
  have hstart : Tied tun (Ledger.start s) ∧ ∀ d, 0 ≤ (Ledger.start s).missing tun d :=
    ⟨tied_start s tun, fun d => le_of_eq (missing_start s tun d).symm⟩
  rw [exact_iff_missing]
  constructor
  · intro hexact
    refine (along_of_last (I := fun l => Tied tun l ∧ ∀ d, 0 ≤ l.missing tun d)
      (G := fun l => ∀ d, l.missing tun d = 0) ?_ ?_ hstart h hexact).2
    · rintro l turn l' hl hstep
      exact missing_nonneg hl (exec_cons_eq_some.mpr ⟨l', hstep, exec_nil l'⟩)
    · rintro l turn l' ⟨htied, hnonneg⟩ hstep hzero
      obtain ⟨-, hle, hlossless⟩ := ledgerStep_missing htied hstep
      have hbefore : ∀ d, l.missing tun d = 0 := by
        intro d
        have := hle d
        have := hnonneg d
        have := hzero d
        omega
      exact ⟨hbefore, hlossless.mpr fun d => by rw [hzero d, hbefore d]⟩
  · intro hlossless
    refine (exec_inv_along (I := fun l => Tied tun l ∧ ∀ d, l.missing tun d = 0) ?_
      ⟨hstart.1, missing_start s tun⟩ hlossless h).2
    rintro l turn l' ⟨htied, hzero⟩ hstepLossless hstep
    obtain ⟨htied', -, hiff⟩ := ledgerStep_missing htied hstep
    exact ⟨htied', fun d => (hiff.mp hstepLossless d).trans (hzero d)⟩

/-- A machine on which every process has read and written this much. -/
def diskMachine (readBytes writeBytes : ℕ) : Machine where
  io := fun _ => some [str "read_bytes: " ++ natDigits readBytes, str "write_bytes: " ++ natDigits writeBytes]
  listing := fun _ _ => none
  unsigned := by
    intro pid lines hlines l hl hc
    cases hlines
    have hlabel : ∀ label : Str, 45 ∉ label → ∀ n, 45 ∉ label ++ natDigits n := by
      intro label hnot n hmem
      rcases List.mem_append.mp hmem with h | h
      · exact hnot h
      · exact absurd (isDigit_of_mem_natDigits h).1 (by decide)
    simp only [List.mem_cons, List.not_mem_nil, or_false] at hl
    rcases hl with rfl | rfl
    · exact hlabel (str "read_bytes: ") (by decide) readBytes hc
    · exact hlabel (str "write_bytes: ") (by decide) writeBytes hc

/-- A GOST tunnel is started. -/
def gostStarted : Turn :=
  .agent (.apply [(some ⟨str "tun_1", 0, .gost (some [str "-L=tcp://:443"]) (str "client")⟩, launching true)]
    fun _ _ => none)

/-- What a failed post would have reported stays lost; and what was counted since a restart is lost
though every post succeeds. -/
theorem accounting_not_exact :
    (∃ l, exec (ledgerStep plainDumps) (Ledger.start HawalAgent.start)
        [gostStarted, .round (diskMachine 100 10) true, .round (diskMachine 250 20) false,
          .round (diskMachine 300 30) true] = some l ∧
      credit (str "tun_1") .received l.accepted = 50 ∧ l.counted (str "tun_1") .received = 200 ∧
        ¬ l.Exact (str "tun_1")) ∧
    ∃ l, exec (ledgerStep plainDumps) (Ledger.start HawalAgent.start)
        [gostStarted, .round (diskMachine 100 10) true, .round (diskMachine 40 20) true] = some l ∧
      credit (str "tun_1") .received l.accepted = 0 ∧ l.counted (str "tun_1") .received = 40 ∧
        ¬ l.Exact (str "tun_1") :=
  ⟨exists_of_any (by decide +kernel), exists_of_any (by decide +kernel)⟩

/-- A run in which the accounting is exact, with a post that fails while nothing is counted and a
restart. -/
theorem accounting_exact_run :
    ∃ l, exec (ledgerStep plainDumps) (Ledger.start HawalAgent.start)
        [gostStarted, .round (diskMachine 100 10) true, .round (diskMachine 250 20) true,
          .round (diskMachine 250 20) false, .round (diskMachine 0 0) true, .round (diskMachine 70 20) true] = some l ∧
      l.counted (str "tun_1") .received = 220 ∧ l.Exact (str "tun_1") := by
  obtain ⟨l, hl, hcounted⟩ : ∃ l, exec (ledgerStep plainDumps) (Ledger.start HawalAgent.start)
      [gostStarted, .round (diskMachine 100 10) true, .round (diskMachine 250 20) true,
        .round (diskMachine 250 20) false, .round (diskMachine 0 0) true, .round (diskMachine 70 20) true] = some l ∧
      l.counted (str "tun_1") .received = 220 := exists_of_any (by decide +kernel)
  exact ⟨l, hl, hcounted, (exact_iff_lossless (str "tun_1") hl).mpr (by decide +kernel)⟩

end Hawal.Agent
