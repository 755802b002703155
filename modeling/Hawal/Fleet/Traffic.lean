import Hawal.Agent.Accounting
import Hawal.Fleet.Http

/-!
# Traffic over HTTP

An agent posts what its counters have grown by, and the panel adds it to the rows of the tunnels that are named.

* `trafficJson` — what is posted.
* `traffic_over_http` — after any posts of any agents, the counters of every tunnel are larger by exactly what the posts
  say, as long as they fit 64 bits, but for posts that are too large. Nothing else changes.
-/

namespace Hawal.Fleet

open Hawal.Lib Hawal.Lib.Python Hawal.Panel Hawal.Panel.Http Hawal.Agent

/-! ### What is posted -/

/-- An element of `reports`. -/
def elementJson (r : Report) : Json :=
  .dict [(str "tunnel_id", .str r.tunnelId), (str "bytes_in", .int r.bytes.received),
    (str "bytes_out", .int r.bytes.sent)]

/-- `{"reports": reports}`. -/
def trafficJson (reports : List Report) : Json := .dict [(str "reports", .list (reports.map elementJson))]

/-- The id is that of a row, and the numbers are numbers of bytes. -/
structure Postable (r : Report) : Prop where
  unicode : Unicode r.tunnelId
  encodable : Encodable r.tunnelId
  received : 0 ≤ r.bytes.received ∧ r.bytes.received < 2 ^ 63
  sent : 0 ≤ r.bytes.sent ∧ r.bytes.sent < 2 ^ 63

instance (r : Report) : Decidable (Postable r) :=
  decidable_of_iff (_ ∧ _ ∧ _ ∧ _)
    ⟨fun ⟨h₁, h₂, h₃, h₄⟩ => ⟨h₁, h₂, h₃, h₄⟩, fun h => ⟨h.unicode, h.encodable, h.received, h.sent⟩⟩

/-- A connection of an agent that posts, with what is drawn for it and the bytes that follow the request. -/
structure Post where
  token : Text
  reports : List Report
  before : List (Str × Text)
  after : List (Str × Text)
  draws : Draws
  more : List ℕ

namespace Post

variable (p : Post)

def body : List ℕ := encode (dumpsIn .spaced (trafficJson p.reports))

def message : Message := agentMessage (str "POST") (str "/api/tunnels/traffic") p.body p.token p.before p.after

/-- What counts of it. -/
def accepted : List Report := if maxHttpBodyBytes < p.body.length then [] else p.reports

end Post

/-! ### What is read of it -/

variable {R : FloatReader} {r : Report} {reports : List Report}

theorem Postable.fits (h : Postable r) : Fits64 r.bytes.received ∧ Fits64 r.bytes.sent := by
  obtain ⟨-, -, hreceived, hsent⟩ := h
  unfold Fits64
  omega

theorem clean_trafficJson (h : ∀ r ∈ reports, Postable r) : Clean R (trafficJson reports) := by
  have hkey : ∀ k : String, Sound (str k) := fun k => sound_of_encodable (unicode_str k) (encodable_str k)
  refine clean_dict (List.nodup_singleton _) (List.forall_mem_singleton.mpr ⟨hkey _, clean_list fun v hv => ?_⟩)
  obtain ⟨r, hr, rfl⟩ := List.mem_map.mp hv
  refine clean_dict (by simp [str_inj]) fun f hf => ?_
  simp only [List.mem_cons, List.not_mem_nil, or_false] at hf
  rcases hf with rfl | rfl | rfl
  · exact ⟨hkey _, clean_text (h r hr).unicode (h r hr).encodable⟩
  · exact ⟨hkey _, clean_int (h r hr).fits.1⟩
  · exact ⟨hkey _, clean_int (h r hr).fits.2⟩

theorem readReport_elementJson (h : Postable r) :
    readReport (elementJson r) = some (some ⟨r.tunnelId, h.encodable⟩, r.bytes.received, r.bytes.sent) := by
  simp [readReport, elementJson, Json.fields?, Fields.get, str_inj, Json.bindText, Json.toInt, h.encodable,
    h.fits]

/-- What reports say of a tunnel. -/
def shares (id : Str) (reports : List Report) : List (ℤ × ℤ) :=
  (reports.filter fun r => decide (r.tunnelId = id)).map fun r => (r.bytes.received, r.bytes.sent)

theorem shares_cons (id : Str) (r : Report) (reports : List Report) : shares id (r :: reports) =
    if r.tunnelId = id then (r.bytes.received, r.bytes.sent) :: shares id reports else shares id reports := by
  unfold shares
  rw [List.filter_cons]
  by_cases hid : r.tunnelId = id
  · rw [if_pos (decide_eq_true hid), if_pos hid, List.map_cons]
  · rw [if_neg (by simpa using hid), if_neg hid]

theorem deltasOf_trafficJson (h : ∀ r ∈ reports, Postable r) (id : Text) :
    deltasOf id (reportsOf (some (trafficJson reports))) = shares id.val reports := by
  have hreports : reportsOf (some (trafficJson reports)) = appliedReports (reports.map elementJson) := by
    simp [reportsOf, readReports, readBody, trafficJson, Json.fields?, Fields.get, Json.iter, orRaise, bind, Except.bind]
  rw [hreports]
  clear hreports
  induction reports with
  | nil => rfl
  | cons r reports ih =>
    rw [List.forall_mem_cons] at h
    rw [List.map_cons, appliedReports, readReport_elementJson h.1]
    dsimp only
    rw [deltasOf_cons, shares_cons, ih h.2]
    exact if_congr Subtype.ext_iff rfl rfl

/-! ### What is added -/

/-- Sums that fit 64 bits are exact. -/
theorem foldl_sqlAdd {a : Numeric} {ds : List ℤ} (hds : ∀ d ∈ ds, 0 ≤ d) (ha : a.Exact)
    (h : Fits64 (a.value + ds.sum)) : ds.foldl sqlAdd a = .integer (a.value + ds.sum) := by
  cases a with
  | real x => exact ha.elim
  | integer n =>
    simp only [Numeric.value] at h ⊢
    induction ds generalizing n with
    | nil => exact congrArg Numeric.integer (add_zero n).symm
    | cons d ds ih =>
      rw [List.forall_mem_cons] at hds
      have hrest : 0 ≤ ds.sum := List.sum_nonneg hds.2
      rw [List.sum_cons, ← add_assoc] at h ⊢
      -- no sum on the way is larger than the last one
      have hd : Fits64 (n + d) := by
        unfold Numeric.Exact at ha
        unfold Fits64 at *
        omega
      rw [List.foldl_cons, sqlAdd, if_pos hd]
      exact ih hds.2 (n + d) hd h

theorem add_append (t : Tunnel) (ds es : List (ℤ × ℤ)) : t.add (ds ++ es) = (t.add ds).add es := by
  simp only [Tunnel.add, List.map_append, List.foldl_append]

theorem shares_append (id : Str) (xs ys : List Report) : shares id (xs ++ ys) = shares id xs ++ shares id ys := by
  simp only [shares, List.filter_append, List.map_append]

theorem sum_shares (id : Str) (reports : List Report) :
    ((shares id reports).map Prod.fst).sum = credit id .received reports ∧
      ((shares id reports).map Prod.snd).sum = credit id .sent reports := by
  unfold shares credit
  rw [List.map_map, List.map_map]
  exact ⟨rfl, rfl⟩

theorem shares_nonneg (h : ∀ r ∈ reports, Postable r) (id : Str) : ∀ d ∈ shares id reports, 0 ≤ d.1 ∧ 0 ≤ d.2 := by
  intro d hd
  obtain ⟨r, hr, rfl⟩ := List.mem_map.mp hd
  have hr := h r (List.mem_filter.mp hr).1
  exact ⟨hr.received.1, hr.sent.1⟩

/-- The row after it was added what the reports say. -/
theorem add_shares (h : ∀ r ∈ reports, Postable r) {t : Tunnel} (hin : t.bytesIn.Exact) (hout : t.bytesOut.Exact)
    (hin' : Fits64 (t.bytesIn.value + credit t.id.val .received reports))
    (hout' : Fits64 (t.bytesOut.value + credit t.id.val .sent reports)) :
    t.add (shares t.id.val reports) =
      { t with
        bytesIn := .integer (t.bytesIn.value + credit t.id.val .received reports)
        bytesOut := .integer (t.bytesOut.value + credit t.id.val .sent reports) } := by
  obtain ⟨hreceived, hsent⟩ := sum_shares t.id.val reports
  have hnonneg := shares_nonneg h t.id.val
  rw [← hreceived] at hin' ⊢
  rw [← hsent] at hout' ⊢
  rw [Tunnel.add, foldl_sqlAdd _ hin hin', foldl_sqlAdd _ hout hout']
  · exact List.forall_mem_map.mpr fun d hd => (hnonneg d hd).2
  · exact List.forall_mem_map.mpr fun d hd => (hnonneg d hd).1

/-! ### Connections -/

section Connections

variable (repr : Json → Str) (R : FloatReader) (netlocOk : Str → Bool)

/-- The state after posts. -/
def afterPosts (s : Store) (posts : List Post) : Store :=
  posts.foldl (fun s p => s.connect repr R netlocOk p.draws (p.message.print ++ p.more)) s

variable {s : Store} {p : Post}

/-- Reports change no more than the tunnels. -/
theorem next_traffic (s : Store) (headers : Headers) (body : Option Json) :
    s.next repr (.agent (.traffic headers body)) =
      { s with db := { s.db with tunnels := (Panel.traffic s.db body).2.tunnels } } := by
  have hdb : (Panel.traffic s.db body).2 = { s.db with tunnels := (Panel.traffic s.db body).2.tunnels } :=
    Db.eq_of_rows (nodes_traffic s.db body) rfl
  exact congrArg (fun db => { s with db := db }) hdb

/-- One post. -/
theorem connect_post (hplain : p.message.Plain) (hp : ∀ r ∈ p.reports, Postable r) :
    ∃ tunnels, s.connect repr R netlocOk p.draws (p.message.print ++ p.more) =
        { s with db := { s.db with tunnels := tunnels } } ∧
      tunnels.rows = s.db.tunnels.rows.map fun t => t.add (shares t.id.val p.accepted) := by
  have hbody : p.message.body = p.body := rfl
  have hconnect := connect_print repr R netlocOk s p.draws (e := .traffic) trivial hplain rfl p.more
  rw [hbody] at hconnect
  rw [hconnect, Post.accepted]
  split
  · exact ⟨s.db.tunnels, rfl, (List.map_id _).symm⟩
  · have hread : readJson R p.body = some (trafficJson p.reports) := readJson_posted (clean_trafficJson hp)
    have hrows := rows_traffic s.db (some (trafficJson p.reports))
    simp only [deltasOf_trafficJson hp] at hrows
    refine ⟨_, ?_, hrows⟩
    rw [Endpoint.asks, hread, Store.grant, Option.map_some, Option.getD_some, next_traffic]

theorem postable_accepted (hp : ∀ r ∈ p.reports, Postable r) : ∀ r ∈ p.accepted, Postable r := by
  intro r hr
  unfold Post.accepted at hr
  split at hr
  · cases hr
  · exact hp r hr

theorem afterPosts_add : ∀ {posts : List Post} (s : Store),
    (∀ p ∈ posts, p.message.Plain ∧ ∀ r ∈ p.reports, Postable r) →
    ∃ tunnels, afterPosts repr R netlocOk s posts = { s with db := { s.db with tunnels := tunnels } } ∧
      tunnels.rows = s.db.tunnels.rows.map fun t => t.add (shares t.id.val (posts.flatMap Post.accepted)) := by
  intro posts
  induction posts with
  | nil => exact fun s _ => ⟨s.db.tunnels, rfl, (List.map_id _).symm⟩
  | cons p posts ih =>
    intro s h
    rw [List.forall_mem_cons] at h
    obtain ⟨tunnels, hconnect, hrows⟩ := connect_post repr R netlocOk (s := s) h.1.1 h.1.2
    obtain ⟨tunnels', hafter, hrows'⟩ := ih { s with db := { s.db with tunnels := tunnels } } h.2
    refine ⟨tunnels', ?_, ?_⟩
    · rw [afterPosts, List.foldl_cons, hconnect]
      exact hafter
    · -- ids stay, so that what the posts say of a row adds up
      rw [hrows']
      show (tunnels.rows.map _) = _
      rw [hrows, List.map_map]
      refine List.map_congr_left fun t _ => ?_
      rw [List.flatMap_cons, shares_append, add_append]
      rfl

/-- **Traffic over HTTP**: after any posts of agents, the counters of every tunnel are larger by the sum of what the
posts say of it, as long as they fit 64 bits, and nothing else is changed. Of a post with more than 1 MiB nothing
counts. -/
theorem traffic_over_http {posts : List Post} (hposts : ∀ p ∈ posts, p.message.Plain ∧ ∀ r ∈ p.reports, Postable r)
    (hfits : ∀ t ∈ s.db.tunnels.rows, t.bytesIn.Exact ∧ t.bytesOut.Exact ∧
      Fits64 (t.bytesIn.value + credit t.id.val .received (posts.flatMap Post.accepted)) ∧
      Fits64 (t.bytesOut.value + credit t.id.val .sent (posts.flatMap Post.accepted))) :
    ∃ tunnels, afterPosts repr R netlocOk s posts = { s with db := { s.db with tunnels := tunnels } } ∧
      tunnels.rows = s.db.tunnels.rows.map fun t =>
        { t with
          bytesIn := .integer (t.bytesIn.value + credit t.id.val .received (posts.flatMap Post.accepted))
          bytesOut := .integer (t.bytesOut.value + credit t.id.val .sent (posts.flatMap Post.accepted)) } := by
  have haccepted : ∀ r ∈ posts.flatMap Post.accepted, Postable r := by
    intro r hr
    obtain ⟨p, hp, hr⟩ := List.mem_flatMap.mp hr
    exact postable_accepted (hposts p hp).2 r hr
  obtain ⟨tunnels, hafter, hrows⟩ := afterPosts_add repr R netlocOk s hposts
  refine ⟨tunnels, hafter, hrows.trans (List.map_congr_left fun t ht => ?_)⟩
  obtain ⟨hin, hout, hin', hout'⟩ := hfits t ht
  exact add_shares haccepted hin hout hin' hout'

end Connections

/-- Two rounds of the example's agent. -/
def examplePosts : List Post :=
  [⟨exampleToken, [⟨str "tun_00000001", ⟨5, 7⟩⟩], [(str "Host", text "panel"), (str "Content-Length", text "75")], [],
      exampleDraws, []⟩,
    ⟨exampleToken, [⟨str "tun_00000001", ⟨0, 2⟩⟩], [(str "Host", text "panel"), (str "Content-Length", text "75")], [],
      exampleDraws, []⟩]

/-- Its tunnel has received 5 bytes and sent 9. -/
theorem examplePosts_added : ∃ db tunnels, exec serve Db.empty accentedTunnel = some db ∧
    afterPosts (fun _ => []) Settings.verbatim (fun _ => true) { Store.empty with db := db } examplePosts =
        { Store.empty with db := { db with tunnels := tunnels } } ∧
      tunnels.rows.map (fun t => (t.bytesIn, t.bytesOut)) = [(.integer 5, .integer 9)] := by
  obtain ⟨db, hrun, hfits⟩ : ∃ db, exec serve Db.empty accentedTunnel = some db ∧
      decide ((∀ t ∈ db.tunnels.rows, t.bytesIn.Exact ∧ t.bytesOut.Exact ∧
          Fits64 (t.bytesIn.value + credit t.id.val .received (examplePosts.flatMap Post.accepted)) ∧
          Fits64 (t.bytesOut.value + credit t.id.val .sent (examplePosts.flatMap Post.accepted))) ∧
        db.tunnels.rows.map (fun t => (Numeric.integer (t.bytesIn.value + credit t.id.val .received (examplePosts.flatMap Post.accepted)),
          Numeric.integer (t.bytesOut.value + credit t.id.val .sent (examplePosts.flatMap Post.accepted)))) =
            [(.integer 5, .integer 9)]) = true :=
    exists_of_any (by decide +kernel)
  obtain ⟨hfits, hsums⟩ := of_decide_eq_true hfits
  obtain ⟨tunnels, hafter, hrows⟩ := traffic_over_http (fun _ => []) Settings.verbatim (fun _ => true)
    (s := { Store.empty with db := db }) (by decide +kernel) hfits
  refine ⟨db, tunnels, hrun, hafter, ?_⟩
  rw [hrows, List.map_map]
  exact hsums

end Hawal.Fleet
