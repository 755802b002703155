import Hawal.Panel.Effects
import Mathlib.Algebra.Order.BigOperators.Group.List
import Mathlib.Algebra.Order.Ring.Int

/-!
# Two writers of the traffic counters

Agents report how much traffic a tunnel had, and `POST /api/tunnels/traffic` adds it to the
tunnel's counters. In the background `background_traffic_collector` asks the kernel how much
the sockets of each tunnel have carried, and sets the counters to that if it is more than
they were. It compares with the rows that it read at the start of the pass, and between reading
them and writing one it awaits `ss` once for every tunnel: what was reported meanwhile is
overwritten.

`safe_iff_kept` says which runs lose nothing: those in which every value that the collector
writes is at least the stored one (and no sum of reports is so large that SQLite computes it in
floating point and rounds it down). `overtakenRun_lost` is a run that loses a report.
-/

namespace Hawal.Panel

open Hawal.Lib Hawal.Lib.Python

variable (repr : Json → Str)

/-! ### The collector -/

/-- The port in front of a rule. -/
def rulePort (rule : Str) : Option ℤ :=
  match parseInt (afterLast ':'.toNat (strip (before '='.toNat (strip rule)))) with
  | some p => if 1 ≤ p ∧ p ≤ 65535 then some p else none
  | none => none

/-- The ports to ask `ss` about; `none` when the loop over the rules raises. -/
def portList (t : Tunnel) : Option (List ℤ) :=
  t.ports.iter.map fun rules =>
    (rules.filterMap fun r => rulePort (r.shown repr)) ++ if t.corePort ≠ 0 then [t.corePort] else []

/-- The next tunnel that the pass asks `ss` about, and the rows after it. Paqet is left to the
agents. An exception ends the pass. -/
def nextPoll : List Tunnel → Option (Tunnel × List Tunnel)
  | [] => none
  | t :: ts =>
    if t.coreType = text "paqet" then nextPoll ts
    else
      match portList repr t with
      | none => none
      | some [] => nextPoll ts
      | some (_ :: _) => some (t, ts)

/-- What the collector writes for a row that it read and the sums that `ss` gave, if anything. -/
def collected (t : Tunnel) : Option (ℕ × ℕ) → Option (ℤ × ℤ)
  | none => none
  | some (received, sent) =>
    let newIn := max t.bytesIn.value received
    let newOut := max t.bytesOut.value sent
    if (newIn ≠ t.bytesIn.value ∨ newOut ≠ t.bytesOut.value) ∧ Fits64 newIn ∧ Fits64 newOut then
      some (newIn, newOut)
    else none

/-- The panel: its database, and the collector with the row it awaits `ss` for and those after. -/
structure Monitor where
  db : Db
  polling : Option (Tunnel × List Tunnel)

/-- A report is served, a pass reads the rows, or `ss` has answered (or failed) for the row that
the pass is at. -/
inductive Event where
  | report (body : Option Json)
  | start
  | poll (answer : Option (ℕ × ℕ))

/-- One event. The collector has one pass at a time. -/
def monitorStep (m : Monitor) : Event → Option Monitor
  | .report body => some { m with db := (traffic m.db body).2 }
  | .start =>
    match m.polling with
    | none => some { m with polling := nextPoll repr m.db.listTunnels }
    | some _ => none
  | .poll answer =>
    match m.polling with
    | none => none
    | some (t, rest) =>
      some
        { db :=
            match collected t answer with
            | some (newIn, newOut) => m.db.setTunnelAbsoluteTraffic t.id newIn newOut
            | none => m.db
          polling := nextPoll repr rest }

/-! ### What is reported -/

/-- The reports that are applied: those up to the first that raises, and that name a tunnel. -/
def appliedReports : List Json → List (Text × ℤ × ℤ)
  | [] => []
  | rep :: reps =>
    match readReport rep with
    | none => []
    | some (none, _, _) => appliedReports reps
    | some (some id, bytesIn, bytesOut) => (id, bytesIn, bytesOut) :: appliedReports reps

/-- The reports that an event applies. -/
def Event.reports : Event → List (Text × ℤ × ℤ)
  | .report body =>
    match readReports body with
    | .ok reps => appliedReports reps
    | .error _ => []
  | _ => []

/-- What the reports say of one tunnel. -/
def deltasOf (id : Text) (reports : List (Text × ℤ × ℤ)) : List (ℤ × ℤ) :=
  (reports.filter fun r => decide (r.1 = id)).map Prod.snd

/-- The bytes that a stretch of a run reports for a tunnel. -/
def reportedIn (id : Text) (es : List Event) : ℤ := ((deltasOf id (es.flatMap Event.reports)).map Prod.fst).sum
def reportedOut (id : Text) (es : List Event) : ℤ := ((deltasOf id (es.flatMap Event.reports)).map Prod.snd).sum

/-- The deltas are not negative. -/
def Event.NonNegative (e : Event) : Prop := ∀ r ∈ e.reports, 0 ≤ r.2.1 ∧ 0 ≤ r.2.2

instance (e : Event) : Decidable e.NonNegative := inferInstanceAs (Decidable (∀ r ∈ e.reports, _ ∧ _))

/-- Every tunnel has its row and at least the bytes it had and those reported for it since. -/
def Kept (es : List Event) (m m' : Monitor) : Prop :=
  ∀ t ∈ m.db.tunnels.rows, ∃ t' ∈ m'.db.tunnels.rows, t'.id = t.id ∧
    t.bytesIn.value ≤ t'.bytesIn.value ∧ t.bytesOut.value ≤ t'.bytesOut.value ∧
    t.bytesIn.value + reportedIn t.id es ≤ t'.bytesIn.value ∧
    t.bytesOut.value + reportedOut t.id es ≤ t'.bytesOut.value

instance (es : List Event) (m m' : Monitor) : Decidable (Kept es m m') :=
  inferInstanceAs (Decidable (∀ t ∈ m.db.tunnels.rows, ∃ t' ∈ m'.db.tunnels.rows, _ ∧ _ ∧ _ ∧ _ ∧ _))

/-- Adding the deltas one by one in SQLite does not round below their sum. -/
def Sums (a : Numeric) (ds : List ℤ) : Prop := a.value + ds.sum ≤ (ds.foldl sqlAdd a).value

instance (a : Numeric) (ds : List ℤ) : Decidable (Sums a ds) := inferInstanceAs (Decidable (_ ≤ _))

/-- Reports are not rounded down, and what the collector writes is at least what is stored. -/
def SafeEvent (m : Monitor) : Event → Prop
  | .report body => ∀ t ∈ m.db.tunnels.rows,
    Sums t.bytesIn ((deltasOf t.id (Event.report body).reports).map Prod.fst) ∧
      Sums t.bytesOut ((deltasOf t.id (Event.report body).reports).map Prod.snd)
  | .start => True
  | .poll answer => ∀ p ∈ m.polling, ∀ v ∈ collected p.1 answer, ∀ t ∈ m.db.tunnels.rows, t.id = p.1.id →
    t.bytesIn.value ≤ v.1 ∧ t.bytesOut.value ≤ v.2

instance (m : Monitor) : (e : Event) → Decidable (SafeEvent m e)
  | .report _ => inferInstanceAs (Decidable (∀ t ∈ m.db.tunnels.rows, _ ∧ _))
  | .start => isTrue trivial
  | .poll answer => inferInstanceAs (Decidable (∀ p ∈ m.polling, ∀ v ∈ collected p.1 answer,
    ∀ t ∈ m.db.tunnels.rows, t.id = p.1.id → t.bytesIn.value ≤ v.1 ∧ t.bytesOut.value ≤ v.2))

/-! ### Sums of reports -/

theorem deltasOf_append (id : Text) (rs rs' : List (Text × ℤ × ℤ)) :
    deltasOf id (rs ++ rs') = deltasOf id rs ++ deltasOf id rs' := by
  simp only [deltasOf, List.filter_append, List.map_append]

theorem deltasOf_cons (id : Text) (r : Text × ℤ × ℤ) (rs : List (Text × ℤ × ℤ)) :
    deltasOf id (r :: rs) = if r.1 = id then r.2 :: deltasOf id rs else deltasOf id rs := by
  unfold deltasOf
  by_cases h : r.1 = id
  · simp only [List.filter_cons, h, decide_true, if_true, List.map_cons]
  · simp only [List.filter_cons, h, decide_false, Bool.false_eq_true, if_false]

theorem reportedIn_cons (id : Text) (e : Event) (es : List Event) :
    reportedIn id (e :: es) = reportedIn id [e] + reportedIn id es := by
  simp only [reportedIn, List.flatMap_cons, List.flatMap_nil, List.append_nil, deltasOf_append, List.map_append,
    List.sum_append]

theorem reportedOut_cons (id : Text) (e : Event) (es : List Event) :
    reportedOut id (e :: es) = reportedOut id [e] + reportedOut id es := by
  simp only [reportedOut, List.flatMap_cons, List.flatMap_nil, List.append_nil, deltasOf_append, List.map_append,
    List.sum_append]

theorem reported_singleton (id : Text) (e : Event) :
    reportedIn id [e] = ((deltasOf id e.reports).map Prod.fst).sum ∧
      reportedOut id [e] = ((deltasOf id e.reports).map Prod.snd).sum := by
  simp only [reportedIn, reportedOut, List.flatMap_cons, List.flatMap_nil, List.append_nil, and_self]

theorem mem_deltasOf {id : Text} {rs : List (Text × ℤ × ℤ)} {d : ℤ × ℤ} (h : d ∈ deltasOf id rs) : (id, d) ∈ rs := by
  obtain ⟨r, hr, rfl⟩ := List.mem_map.mp h
  obtain ⟨hr, hid⟩ := List.mem_filter.mp hr
  rw [← of_decide_eq_true hid]
  exact hr

theorem reported_nonneg {e : Event} (h : e.NonNegative) (id : Text) :
    0 ≤ reportedIn id [e] ∧ 0 ≤ reportedOut id [e] := by
  obtain ⟨hin, hout⟩ := reported_singleton id e
  rw [hin, hout]
  constructor
  · refine List.sum_nonneg fun x hx => ?_
    obtain ⟨d, hd, rfl⟩ := List.mem_map.mp hx
    exact (h _ (mem_deltasOf hd)).1
  · refine List.sum_nonneg fun x hx => ?_
    obtain ⟨d, hd, rfl⟩ := List.mem_map.mp hx
    exact (h _ (mem_deltasOf hd)).2

/-! ### Rows -/

/-- The row that is updated, and the others. -/
theorem mem_updateTunnelRow {db : Db} {id : Text} {f : Tunnel → Tunnel} (hf : ∀ t, (f t).id = t.id) {t : Tunnel}
    (ht : t ∈ db.tunnels) (hid : t.id = id) : f t ∈ (db.updateTunnelRow id f hf).tunnels :=
  List.mem_map.mpr ⟨t, ht, if_pos hid⟩

theorem mem_updateTunnelRow_of_ne {db : Db} {id : Text} {f : Tunnel → Tunnel} (hf : ∀ t, (f t).id = t.id) {t : Tunnel}
    (ht : t ∈ db.tunnels) (hid : t.id ≠ id) : t ∈ (db.updateTunnelRow id f hf).tunnels :=
  List.mem_map.mpr ⟨t, ht, if_neg hid⟩

/-- The row of a tunnel after reports: each of its deltas was added. -/
theorem row_addReports (reps : List Json) : ∀ {db : Db} {t : Tunnel}, t ∈ db.tunnels →
    ∃ t' ∈ (addReports db reps).2.tunnels, t'.id = t.id ∧
      t'.bytesIn = ((deltasOf t.id (appliedReports reps)).map Prod.fst).foldl sqlAdd t.bytesIn ∧
      t'.bytesOut = ((deltasOf t.id (appliedReports reps)).map Prod.snd).foldl sqlAdd t.bytesOut := by
  induction reps with
  | nil => exact fun ht => ⟨_, ht, rfl, rfl, rfl⟩
  | cons rep reps ih =>
    intro db t ht
    rw [addReports, appliedReports]
    cases hr : readReport rep with
    | none => exact ⟨t, ht, rfl, rfl, rfl⟩
    | some r =>
      obtain ⟨o, bytesIn, bytesOut⟩ := r
      cases o with
      | none => exact ih ht
      | some id =>
        rw [deltasOf_cons]
        by_cases hid : t.id = id
        · have hrow : { t with bytesIn := sqlAdd t.bytesIn bytesIn, bytesOut := sqlAdd t.bytesOut bytesOut } ∈
              (db.updateTunnelTraffic id bytesIn bytesOut).tunnels := by
            unfold Db.updateTunnelTraffic
            exact mem_updateTunnelRow _ ht hid
          rw [if_pos hid.symm]
          exact ih hrow
        · have hrow : t ∈ (db.updateTunnelTraffic id bytesIn bytesOut).tunnels := by
            unfold Db.updateTunnelTraffic
            exact mem_updateTunnelRow_of_ne _ ht hid
          rw [if_neg (Ne.symm hid)]
          exact ih hrow

theorem row_traffic {db : Db} {t : Tunnel} (ht : t ∈ db.tunnels) (body : Option Json) :
    ∃ t' ∈ (traffic db body).2.tunnels, t'.id = t.id ∧
      t'.bytesIn = ((deltasOf t.id (Event.report body).reports).map Prod.fst).foldl sqlAdd t.bytesIn ∧
      t'.bytesOut = ((deltasOf t.id (Event.report body).reports).map Prod.snd).foldl sqlAdd t.bytesOut := by
  rw [traffic, Event.reports]
  cases readReports body with
  | ok reps => exact row_addReports reps ht
  | error e => exact ⟨t, ht, rfl, rfl, rfl⟩

/-! ### Single events -/

theorem Kept.refl (m : Monitor) : Kept [] m m := by
  intro t ht
  refine ⟨t, ht, rfl, le_rfl, le_rfl, ?_, ?_⟩
  · exact (add_zero _).le
  · exact (add_zero _).le

theorem Kept.cons {e : Event} {es : List Event} {m m₁ m₂ : Monitor} (h : Kept [e] m m₁) (h' : Kept es m₁ m₂) :
    Kept (e :: es) m m₂ := by
  intro t ht
  obtain ⟨t₁, ht₁, hid, hin, hout, hrin, hrout⟩ := h t ht
  obtain ⟨t₂, ht₂, hid', hin', hout', hrin', hrout'⟩ := h' t₁ ht₁
  rw [hid] at hid' hrin' hrout'
  refine ⟨t₂, ht₂, hid', hin.trans hin', hout.trans hout', ?_, ?_⟩
  · rw [reportedIn_cons]
    omega
  · rw [reportedOut_cons]
    omega

/-- An event keeps a tunnel's bytes if its row has what was reported; that no counter goes down
comes with it. -/
theorem kept_singleton {e : Event} (he : e.NonNegative) {m m' : Monitor} :
    Kept [e] m m' ↔ ∀ t ∈ m.db.tunnels, ∃ t' ∈ m'.db.tunnels, t'.id = t.id ∧
      t.bytesIn.value + ((deltasOf t.id e.reports).map Prod.fst).sum ≤ t'.bytesIn.value ∧
      t.bytesOut.value + ((deltasOf t.id e.reports).map Prod.snd).sum ≤ t'.bytesOut.value := by
  constructor
  · intro h t ht
    obtain ⟨t', ht', hid, -, -, hin, hout⟩ := h t ht
    obtain ⟨hrin, hrout⟩ := reported_singleton t.id e
    exact ⟨t', ht', hid, hrin ▸ hin, hrout ▸ hout⟩
  · intro h t ht
    obtain ⟨t', ht', hid, hin, hout⟩ := h t ht
    obtain ⟨hrin, hrout⟩ := reported_singleton t.id e
    obtain ⟨hnin, hnout⟩ := reported_nonneg he t.id
    rw [← hrin] at hin
    rw [← hrout] at hout
    exact ⟨t', ht', hid, by omega, by omega, hin, hout⟩

theorem safe_report {m : Monitor} {body : Option Json} (he : (Event.report body).NonNegative) :
    SafeEvent m (.report body) ↔ Kept [.report body] m { m with db := (traffic m.db body).2 } := by
  rw [kept_singleton he]
  constructor
  · intro hsafe t ht
    obtain ⟨t', ht', hid, hin, hout⟩ := row_traffic ht body
    obtain ⟨hsin, hsout⟩ := hsafe t ht
    exact ⟨t', ht', hid, hin ▸ hsin, hout ▸ hsout⟩
  · intro hkept t ht
    obtain ⟨t', ht', hid, hin, hout⟩ := hkept t ht
    obtain ⟨t₁, ht₁, hid₁, hin₁, hout₁⟩ := row_traffic ht body
    have heq : t' = t₁ := Table.eq_of_key ht' ht₁ (hid.trans hid₁.symm)
    subst heq
    rw [Sums, Sums, ← hin₁, ← hout₁]
    exact ⟨hin, hout⟩

/-- An event that reports nothing and leaves the database alone. -/
theorem kept_of_db_eq {e : Event} (he : e.reports = []) {m m' : Monitor} (h : m'.db = m.db) : Kept [e] m m' := by
  have hnn : e.NonNegative := by
    rw [Event.NonNegative, he]
    intro r hr
    cases hr
  rw [kept_singleton hnn, h, he]
  intro t ht
  exact ⟨t, ht, rfl, (add_zero _).le, (add_zero _).le⟩

theorem safe_poll {m m' : Monitor} {answer : Option (ℕ × ℕ)} (h : monitorStep repr m (.poll answer) = some m') :
    SafeEvent m (.poll answer) ↔ Kept [.poll answer] m m' := by
  have hnn : (Event.poll answer).NonNegative := fun r hr => by cases hr
  unfold monitorStep at h
  cases hp : m.polling with
  | none => simp [hp] at h
  | some p =>
    obtain ⟨t, rest⟩ := p
    simp only [hp, Option.some.injEq] at h
    cases hc : collected t answer with
    | none =>
      simp only [hc] at h
      refine iff_of_true ?_ (kept_of_db_eq rfl (by rw [← h]))
      intro p hp' v hv
      rw [hp] at hp'
      cases hp'
      rw [hc] at hv
      cases hv
    | some v =>
      obtain ⟨newIn, newOut⟩ := v
      simp only [hc] at h
      have hdb : m'.db = m.db.setTunnelAbsoluteTraffic t.id newIn newOut := by rw [← h]
      rw [kept_singleton hnn]
      constructor
      · intro hsafe o ho
        by_cases hid : o.id = t.id
        · obtain ⟨hin, hout⟩ := hsafe (t, rest) hp (newIn, newOut) hc o ho hid
          refine ⟨{ o with bytesIn := .integer newIn, bytesOut := .integer newOut }, ?_, rfl, ?_, ?_⟩
          · rw [hdb]
            unfold Db.setTunnelAbsoluteTraffic
            exact mem_updateTunnelRow _ ho hid
          · exact (add_zero _).le.trans hin
          · exact (add_zero _).le.trans hout
        · refine ⟨o, ?_, rfl, (add_zero _).le, (add_zero _).le⟩
          rw [hdb]
          unfold Db.setTunnelAbsoluteTraffic
          exact mem_updateTunnelRow_of_ne _ ho hid
      · intro hkept p hp' v hv o ho hid
        rw [hp] at hp'
        cases hp'
        rw [hc] at hv
        cases hv
        obtain ⟨o', ho', hid', hin, hout⟩ := hkept o ho
        have hnew : { o with bytesIn := .integer newIn, bytesOut := .integer newOut } ∈ m'.db.tunnels := by
          rw [hdb]
          unfold Db.setTunnelAbsoluteTraffic
          exact mem_updateTunnelRow _ ho hid
        have heq : o' = { o with bytesIn := .integer newIn, bytesOut := .integer newOut } := Table.eq_of_key ho' hnew hid'
        subst heq
        exact ⟨(add_zero _).ge.trans hin, (add_zero _).ge.trans hout⟩

/-- **When no traffic is lost**: with deltas that are not negative, all events of a run are safe
exactly if over every stretch of it every tunnel keeps the bytes it had and those reported. -/
theorem safe_iff_kept {m last : Monitor} {es : List Event} (hes : ∀ e ∈ es, e.NonNegative)
    (h : exec (monitorStep repr) m es = some last) :
    Along (monitorStep repr) SafeEvent m es ↔
      ∀ pre mid m₁ m₂, pre ++ mid <+: es → exec (monitorStep repr) m pre = some m₁ →
        exec (monitorStep repr) m₁ mid = some m₂ → Kept mid m₁ m₂ := by
  refine along_iff_stretches Kept.refl (fun e es m m₁ m₂ => Kept.cons) (fun e he m m' hstep => ?_) h
  cases e with
  | report body =>
    cases hstep
    exact safe_report (hes _ he)
  | start =>
    unfold monitorStep at hstep
    cases hp : m.polling with
    | none =>
      simp only [hp, Option.some.injEq] at hstep
      exact iff_of_true trivial (kept_of_db_eq rfl (by rw [← hstep]))
    | some p => simp [hp] at hstep
  | poll answer => exact safe_poll repr hstep

/-- A panel with one tunnel, its collector asleep. -/
def quietMonitor : Monitor := ⟨(exec serve Db.empty openTunnel).getD Db.empty, none⟩

/-- A report of received bytes for that tunnel. -/
def received (n : ℤ) : Event :=
  .report (some (.dict [(str "reports",
    .list [.dict [(str "tunnel_id", .str (str "tun_00000001")), (str "bytes_in", .int n)]])]))

/-- A report during a pass whose `ss` counts more than was reported. -/
def calmRun : List Event := [.start, received 100, .poll (some (500, 0)), received 20]

/-- Such a run keeps every byte. -/
theorem calmRun_kept :
    ∃ last, exec (monitorStep fun _ => []) quietMonitor calmRun = some last ∧ Kept calmRun quietMonitor last := by
  obtain ⟨last, hlast, -⟩ : ∃ last, exec (monitorStep fun _ => []) quietMonitor calmRun = some last ∧ True :=
    exists_of_any (by decide +kernel)
  have hkept := (safe_iff_kept (fun _ => []) (by decide +kernel) hlast).mp (by decide +kernel)
  exact ⟨last, hlast, hkept [] calmRun quietMonitor last (by simp) rfl hlast⟩

/-- A report during a pass whose `ss` counts less: the sockets of the tunnel are new. -/
def overtakenRun : List Event := [.start, received 100, .poll (some (50, 0))]

/-- The pass sets the counter back, below what was reported. -/
theorem overtakenRun_lost : (∀ e ∈ overtakenRun, e.NonNegative) ∧
    ∃ m, exec (monitorStep fun _ => []) quietMonitor overtakenRun = some m ∧ ¬ Kept overtakenRun quietMonitor m :=
  ⟨by decide +kernel, exists_of_any (by decide +kernel)⟩

end Hawal.Panel
