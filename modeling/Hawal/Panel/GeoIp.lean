import Hawal.Lib.Dict
import Hawal.Lib.Json

/-!
# Where a node is

`resolve_geoip` looks an address up once and returns the dict that it keeps in `GEOIP_CACHE`, not a copy, and
`POST /api/nodes` writes into the dict it was returned when the role is `iran`. Here dicts are objects on a heap, so
that what is written through one reference is seen through the others.

* `resolveGeoip`, `locate` — the two functions.
* `located_of_history` — what a node is shown as, as a function of the requests: the first lookup of its address, and
  Iran when this or an earlier request for the address had the role. No address is looked up twice.
-/

namespace Hawal.Panel.GeoIp

open Hawal.Lib Hawal.Lib.Python

/-- What is shown of an address. -/
structure Geo where
  countryCode : Str
  countryName : Json
  flag : Str
  city : Json

/-- `COUNTRY_FLAGS`. -/
def countryFlags : List (Str × Str) :=
  [(str "IR", str "🇮🇷"), (str "DE", str "🇩🇪"), (str "NL", str "🇳🇱"), (str "FI", str "🇫🇮"), (str "FR", str "🇫🇷"),
    (str "US", str "🇺🇸"), (str "GB", str "🇬🇧"), (str "TR", str "🇹🇷"), (str "AE", str "🇦🇪"), (str "SG", str "🇸🇬"),
    (str "CA", str "🇨🇦"), (str "SE", str "🇸🇪"), (str "CH", str "🇨🇭"), (str "RU", str "🇷🇺"), (str "IT", str "🇮🇹"),
    (str "ES", str "🇪🇸"), (str "PL", str "🇵🇱"), (str "AT", str "🇦🇹")]

/-- `COUNTRY_NAMES_FA`. -/
def countryNamesFa : List (Str × Str) :=
  [(str "IR", str "ایران"), (str "DE", str "آلمان"), (str "NL", str "هلند"), (str "FI", str "فنلاند"),
    (str "FR", str "فرانسه"), (str "US", str "آمریکا"), (str "GB", str "انگلستان"), (str "TR", str "ترکیه"),
    (str "AE", str "امارات"), (str "SG", str "سنگاپور"), (str "CA", str "کانادا"), (str "SE", str "سوئد"),
    (str "CH", str "سوئیس"), (str "RU", str "روسیه"), (str "IT", str "ایتالیا"), (str "ES", str "اسپانیا"),
    (str "PL", str "لهستان"), (str "AT", str "اتریش")]

section Lookup

-- `str.upper`
variable (upper : Str → Str)

/-- `get_country_flag`. -/
def getCountryFlag (countryCode : Str) : Str :=
  if countryCode = [] then str "🌐" else (Dict.get id countryFlags (upper countryCode)).getD (str "🌐")

/-- The addresses that are not looked up. -/
def IsLocal (ip : Str) : Prop := ip = [] ∨ ip ∈ [str "127.0.0.1", str "localhost", str "0.0.0.0"]

instance (ip : Str) : Decidable (IsLocal ip) := inferInstanceAs (Decidable (_ ∨ _))

/-- What is returned for these. -/
def localhost : Geo := ⟨str "LOCAL", .str (str "لوکال / آزمایشی"), str "💻", .str (str "Localhost")⟩

/-- What the service says, when it could be asked and read; anything that raises on the way is caught. -/
def readAnswer (answer : Option Json) : Option Geo := do
  let data ← answer.bind Json.fields?
  match data.get "status" .null, data.get "countryCode" (.str []) with
  | .str status, .str code =>
    if status = str "success" then
      let cc := upper code
      some
        { countryCode := cc
          countryName := ((Dict.get id countryNamesFa cc).map Json.str).getD (data.get "country" (.str (str "خارج")))
          flag := getCountryFlag upper cc
          city := data.get "city" (.str []) }
    else none
  | _, _ => none

/-- What is guessed from the address. -/
def guess (ip : Str) : Geo :=
  if [str "5.202.", str "185.", str "91.98.", str "94.182."].any fun start => start.isPrefixOf ip then
    ⟨str "IR", .str (str "ایران"), str "🇮🇷", .str (str "تهران")⟩
  else ⟨str "GLOBAL", .str (str "خارج"), str "🌐", .str []⟩

/-- The dict that a lookup makes. -/
def look (ip : Str) (answer : Option Json) : Geo := (readAnswer upper answer).getD (guess ip)

/-! ### The cache -/

/-- The dicts that were made, and `GEOIP_CACHE`, which refers to some of them. -/
structure Memory where
  heap : List Geo
  cache : List (Str × ℕ)

/-- The panel has started. -/
def Memory.start : Memory := ⟨[], []⟩

/-- The dict that a name in the cache refers to. -/
def Memory.cached (m : Memory) (ip : Str) : Option ℕ := Dict.get id m.cache ip

/-- `resolve_geoip`: a reference to a dict. -/
def resolveGeoip (m : Memory) (ip : Str) (answer : Option Json) : ℕ × Memory :=
  if IsLocal ip then (m.heap.length, { m with heap := m.heap ++ [localhost] })
  else
    match m.cached ip with
    | some ref => (ref, m)
    | none =>
      (m.heap.length, { heap := m.heap ++ [look upper ip answer], cache := Dict.set id m.cache ip m.heap.length })

/-- The service is asked. -/
def Asks (m : Memory) (ip : Str) : Prop := ¬ IsLocal ip ∧ m.cached ip = none

/-- The three assignments of `POST /api/nodes`. -/
def Geo.asIran (geo : Geo) : Geo :=
  { geo with flag := str "🇮🇷", countryName := .str (str "ایران"), countryCode := str "IR" }

/-- A request for a new node, with what the service would say. -/
structure Request where
  ip : Str
  /-- `role == "iran"`. -/
  iran : Bool
  answer : Option Json

/-- What a request does to the dicts, and the dict whose values go into the row and into the answer. -/
def locate (m : Memory) (r : Request) : ℕ × Memory :=
  let found := resolveGeoip upper m r.ip r.answer
  (found.1, if r.iran then { found.2 with heap := found.2.heap.modify found.1 Geo.asIran } else found.2)

/-- The dict of a request. -/
def located (m : Memory) (r : Request) : Option Geo := (locate upper m r).2.heap[(locate upper m r).1]?

/-- The memory after requests. -/
def after (rs : List Request) : Memory := rs.foldl (fun m r => (locate upper m r).2) Memory.start

/-! ### What requests leave -/

/-- What was looked up for an address first, and then Iran when one of the requests said so. -/
def shown (rs : List Request) (ip : Str) : Option Geo :=
  (rs.find? fun r => decide (r.ip = ip)).map fun first =>
    if rs.any fun r => decide (r.ip = ip) && r.iran then (look upper ip first.answer).asIran
    else look upper ip first.answer

variable {upper} {rs : List Request} {r : Request} {m : Memory} {ip : Str} {geo : Geo}

theorem shown_append_of_ne (h : r.ip ≠ ip) : shown upper (rs ++ [r]) ip = shown upper rs ip := by
  simp [shown, h]

theorem shown_append_new (upper : Str → Str) (h : ∀ r' ∈ rs, r'.ip ≠ r.ip) : shown upper (rs ++ [r]) r.ip =
    some (if r.iran then (look upper r.ip r.answer).asIran else look upper r.ip r.answer) := by
  have hfind : rs.find? (fun r' => decide (r'.ip = r.ip)) = none := by simpa using h
  have hany : rs.any (fun r' => decide (r'.ip = r.ip) && r'.iran) = false := by
    simp only [List.any_eq_false, Bool.and_eq_true, decide_eq_true_eq]
    exact fun r' hr' hand => h r' hr' hand.1
  simp [shown, hfind, hany]

theorem shown_append_old (h : shown upper rs r.ip = some geo) :
    shown upper (rs ++ [r]) r.ip = some (if r.iran then geo.asIran else geo) := by
  obtain ⟨first, hfirst, rfl⟩ := Option.map_eq_some_iff.mp h
  have hfind : (rs ++ [r]).find? (fun r' => decide (r'.ip = r.ip)) = some first := by simp [hfirst]
  have hany : (rs ++ [r]).any (fun r' => decide (r'.ip = r.ip) && r'.iran) =
      (rs.any (fun r' => decide (r'.ip = r.ip) && r'.iran) || r.iran) := by simp
  rw [shown, hfind, Option.map_some, hany]
  cases r.iran with
  | false => simp
  | true => simp only [Bool.or_true, if_true]; split <;> rfl

/-- The cache after requests. -/
structure Kept (upper : Str → Str) (rs : List Request) (m : Memory) : Prop where
  unknown : ∀ ip, m.cached ip = none ↔ IsLocal ip ∨ ∀ r ∈ rs, r.ip ≠ ip
  known : ∀ ip ref, m.cached ip = some ref → ∃ geo, m.heap[ref]? = some geo ∧ shown upper rs ip = some geo
  apart : ∀ ip ip' ref, m.cached ip = some ref → m.cached ip' = some ref → ip = ip'

theorem kept_start : Kept upper [] Memory.start where
  unknown _ := iff_of_true rfl (.inr (List.forall_mem_nil _))
  known _ _ h := nomatch h
  apart _ _ _ h := nomatch h

/-- A new address. -/
theorem cached_set (m : Memory) (ip : Str) (ref : ℕ) (heap : List Geo) (ip' : Str) :
    Memory.cached ⟨heap, Dict.set id m.cache ip ref⟩ ip' = if ip = ip' then some ref else m.cached ip' :=
  Dict.get_set m.cache ip ref ip'

theorem Kept.lt (h : Kept upper rs m) {ref : ℕ} (hcached : m.cached ip = some ref) : ref < m.heap.length := by
  obtain ⟨geo, hgeo, -⟩ := h.known ip ref hcached
  exact (List.getElem?_eq_some_iff.mp hgeo).1

/-- The three assignments change one dict. -/
theorem getElem?_written (heap : List Geo) (iran : Bool) (ref i : ℕ) :
    (if iran then heap.modify ref Geo.asIran else heap)[i]? =
      if i = ref then heap[ref]?.map fun geo => if iran then geo.asIran else geo else heap[i]? := by
  cases iran with
  | false => by_cases hi : i = ref <;> simp [hi]
  | true =>
    rw [if_pos rfl, List.getElem?_modify]
    by_cases hi : i = ref
    · subst hi
      simp
    · simp [hi, Ne.symm hi]

/-- A request, by the reference that its lookup returns. -/
theorem locate_of_resolve (upper : Str → Str) {ref : ℕ} {m' : Memory}
    (h : resolveGeoip upper m r.ip r.answer = (ref, m')) :
    located upper m r = (m'.heap[ref]?.map fun geo => if r.iran then geo.asIran else geo) ∧
      (∀ ip, (locate upper m r).2.cached ip = m'.cached ip) ∧
      ∀ i, (locate upper m r).2.heap[i]? =
        if i = ref then m'.heap[ref]?.map fun geo => if r.iran then geo.asIran else geo else m'.heap[i]? := by
  have hlocate : locate upper m r =
      (ref, { m' with heap := if r.iran then m'.heap.modify ref Geo.asIran else m'.heap }) := by
    unfold locate
    rw [h]
    cases r.iran <;> rfl
  have hheap := getElem?_written m'.heap r.iran ref
  rw [located, hlocate]
  exact ⟨by rw [hheap ref, if_pos rfl], fun _ => rfl, hheap⟩

theorem forall_ne_append : (∀ r' ∈ rs ++ [r], r'.ip ≠ ip) ↔ (∀ r' ∈ rs, r'.ip ≠ ip) ∧ r.ip ≠ ip := by
  rw [List.forall_mem_append, List.forall_mem_singleton]

/-- What a request reads, and what it leaves. -/
theorem Kept.next (h : Kept upper rs m) (r : Request) :
    located upper m r = (if IsLocal r.ip then some (if r.iran then localhost.asIran else localhost)
      else shown upper (rs ++ [r]) r.ip) ∧ Kept upper (rs ++ [r]) (locate upper m r).2 := by
  by_cases hlocal : IsLocal r.ip
  · -- a dict of its own
    obtain ⟨hlocated, hcached, hheap⟩ := locate_of_resolve upper (show resolveGeoip upper m r.ip r.answer =
      (m.heap.length, { m with heap := m.heap ++ [localhost] }) from if_pos hlocal)
    have hkept : ∀ ip, (locate upper m r).2.cached ip = m.cached ip := hcached
    have hnone : m.cached r.ip = none := (h.unknown _).mpr (.inl hlocal)
    rw [if_pos hlocal, hlocated]
    refine ⟨by simp, fun ip => ?_, fun ip ref href => ?_, fun ip ip' ref => ?_⟩
    · rw [hkept, h.unknown, forall_ne_append]
      by_cases hip : r.ip = ip
      · exact iff_of_true (.inl (hip ▸ hlocal)) (.inl (hip ▸ hlocal))
      · simp only [hip, ne_eq, not_false_iff, and_true]
    · rw [hkept] at href
      obtain ⟨geo, hgeo, hshown⟩ := h.known ip ref href
      have hlt := h.lt href
      refine ⟨geo, by rw [hheap, if_neg hlt.ne, List.getElem?_append_left hlt, hgeo], ?_⟩
      rw [shown_append_of_ne, hshown]
      rintro rfl
      rw [hnone] at href
      cases href
    · rw [hkept, hkept]
      exact h.apart ip ip' ref
  rw [if_neg hlocal]
  cases hfound : m.cached r.ip with
  | some ref =>
    -- the dict that was made before
    obtain ⟨hlocated, hcached, hheap⟩ := locate_of_resolve upper
      (show resolveGeoip upper m r.ip r.answer = (ref, m) by rw [resolveGeoip, if_neg hlocal, hfound])
    obtain ⟨geo, hgeo, hshown⟩ := h.known r.ip ref hfound
    have hnew := shown_append_old (r := r) hshown
    rw [hlocated]
    refine ⟨by rw [hgeo, hnew]; rfl, fun ip => ?_, fun ip ref' href => ?_, fun ip ip' ref' => ?_⟩
    · rw [hcached, h.unknown, forall_ne_append]
      by_cases hip : r.ip = ip
      · subst hip
        have hknown : ¬ (IsLocal r.ip ∨ ∀ r' ∈ rs, r'.ip ≠ r.ip) := by
          rw [← h.unknown, hfound]
          exact Option.some_ne_none ref
        exact iff_of_false hknown fun hor => hknown (hor.imp_right And.left)
      · simp only [hip, ne_eq, not_false_iff, and_true]
    · rw [hcached] at href
      by_cases hip : r.ip = ip
      · subst hip
        rw [hfound, Option.some.injEq] at href
        subst href
        exact ⟨_, by rw [hheap, if_pos rfl, hgeo]; rfl, hnew⟩
      · obtain ⟨geo', hgeo', hshown'⟩ := h.known ip ref' href
        have hne : ref' ≠ ref := by
          rintro rfl
          exact hip (h.apart _ _ _ hfound href)
        exact ⟨geo', by rw [hheap, if_neg hne, hgeo'], by rw [shown_append_of_ne hip, hshown']⟩
    · rw [hcached, hcached]
      exact h.apart ip ip' ref'
  | none =>
    -- a dict that the cache is to refer to
    obtain ⟨hlocated, hcached, hheap⟩ := locate_of_resolve upper (show resolveGeoip upper m r.ip r.answer =
      (m.heap.length, ⟨m.heap ++ [look upper r.ip r.answer], Dict.set id m.cache r.ip m.heap.length⟩) by
        rw [resolveGeoip, if_neg hlocal, hfound])
    have hfirst : ∀ r' ∈ rs, r'.ip ≠ r.ip := ((h.unknown r.ip).mp hfound).resolve_left hlocal
    have hnew := shown_append_new upper hfirst
    simp only [cached_set] at hcached
    rw [hlocated, hnew]
    refine ⟨by simp, fun ip => ?_, fun ip ref href => ?_, fun ip ip' ref => ?_⟩
    · rw [hcached, forall_ne_append]
      by_cases hip : r.ip = ip
      · subst hip
        simp [hlocal]
      · simp only [hip, if_false, h.unknown, ne_eq, not_false_iff, and_true]
    · rw [hcached] at href
      by_cases hip : r.ip = ip
      · subst hip
        rw [if_pos rfl, Option.some.injEq] at href
        subst href
        exact ⟨_, by rw [hheap, if_pos rfl]; simp, hnew⟩
      · rw [if_neg hip] at href
        obtain ⟨geo, hgeo, hshown⟩ := h.known ip ref href
        have hlt := h.lt href
        exact ⟨geo, by rw [hheap, if_neg hlt.ne, List.getElem?_append_left hlt, hgeo],
          by rw [shown_append_of_ne hip, hshown]⟩
    · rw [hcached, hcached]
      by_cases hip : r.ip = ip <;> by_cases hip' : r.ip = ip'
      · exact fun _ _ => hip.symm.trans hip'
      · rw [if_pos hip, if_neg hip']
        intro href href'
        cases href
        exact absurd (h.lt href') (Nat.lt_irrefl _)
      · rw [if_neg hip, if_pos hip']
        intro href href'
        cases href'
        exact absurd (h.lt href) (Nat.lt_irrefl _)
      · rw [if_neg hip, if_neg hip']
        exact h.apart ip ip' ref

/-- **A node is shown by its history**: whatever the requests before were, a new node with an address that is looked up
is shown as what the first lookup of the address gave, and as Iran when one of the requests for it, this one or an
earlier one, had the role `iran`. The service is asked only for the first of them. -/
theorem located_of_history (upper : Str → Str) (rs : List Request) (r : Request) :
    located upper (after upper rs) r = (if IsLocal r.ip then some (if r.iran then localhost.asIran else localhost)
      else shown upper (rs ++ [r]) r.ip) ∧
    (Asks (after upper rs) r.ip ↔ ¬ IsLocal r.ip ∧ ∀ r' ∈ rs, r'.ip ≠ r.ip) := by
  have hkept : ∀ rs : List Request, Kept upper rs (after upper rs) := by
    intro rs
    induction rs using List.reverseRecOn with
    | nil => exact kept_start
    | append_singleton rs r ih =>
      rw [after, List.foldl_append]
      exact (ih.next r).2
  refine ⟨((hkept rs).next r).1, ?_⟩
  rw [Asks, (hkept rs).unknown]
  tauto

end Lookup

end Hawal.Panel.GeoIp
