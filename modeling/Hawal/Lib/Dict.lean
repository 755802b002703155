import Mathlib.Data.List.Nodup

/-!
# Dicts

The entries of a dict stand in the order in which their keys were first set. Two keys are the same
when `hash` says so; which of them the dict keeps is the first.
-/

namespace Hawal.Lib.Dict

variable {κ η α : Type} [DecidableEq η] (hash : κ → η)

/-- `d[k] = v`. -/
def set : List (κ × α) → κ → α → List (κ × α)
  | [], k, v => [(k, v)]
  | e :: rest, k, v => if hash e.1 = hash k then (e.1, v) :: rest else e :: set rest k v

/-- `d.update(entries)`. -/
def update (d entries : List (κ × α)) : List (κ × α) := entries.foldl (fun d e => set hash d e.1 e.2) d

/-- `d.get(h)`, of a key by its hash. -/
def get (d : List (κ × α)) (h : η) : Option α := (d.find? fun e => decide (hash e.1 = h)).map Prod.snd

/-- The keys, by their hashes. -/
def keys (d : List (κ × α)) : List η := d.map fun e => hash e.1

variable {hash}

theorem get_cons (e : κ × α) (d : List (κ × α)) (h : η) :
    get hash (e :: d) h = if hash e.1 = h then some e.2 else get hash d h := by
  unfold get
  rw [List.find?_cons]
  split <;> simp_all

theorem get_set (d : List (κ × α)) (k : κ) (v : α) (h : η) :
    get hash (set hash d k v) h = if hash k = h then some v else get hash d h := by
  induction d with
  | nil => exact get_cons (k, v) [] h
  | cons e d ih =>
    rw [set]
    split
    · rename_i hk
      rw [get_cons, get_cons, hk]
      split <;> rfl
    · rename_i hk
      rw [get_cons, get_cons, ih]
      split
      · rename_i he
        rw [if_neg fun hh => hk (he.trans hh.symm)]
      · rfl

/-- What an update sets counts, and else what there was. -/
theorem get_update (d entries : List (κ × α)) (h : η) :
    get hash (update hash d entries) h = (get hash (update hash [] entries) h).or (get hash d h) := by
  induction entries generalizing d with
  | nil => rfl
  | cons e entries ih =>
    show get hash (update hash (set hash d e.1 e.2) entries) h =
      (get hash (update hash (set hash [] e.1 e.2) entries) h).or _
    rw [ih, ih (set hash [] e.1 e.2), get_set, get_set, Option.or_assoc]
    split <;> rfl

theorem mem_keys_set {d : List (κ × α)} {k : κ} {v : α} {h : η} :
    h ∈ keys hash (set hash d k v) ↔ h ∈ keys hash d ∨ h = hash k := by
  induction d with
  | nil => simp [set, keys]
  | cons e d ih =>
    rw [set]
    split
    · rename_i hk
      have hfirst : hash k ∈ keys hash (e :: d) := hk ▸ List.mem_cons_self
      exact ⟨.inl, fun hh => hh.elim id fun hh => hh ▸ hfirst⟩
    · unfold keys at ih ⊢
      rw [List.map_cons, List.mem_cons, List.map_cons, List.mem_cons, ih, or_assoc]

theorem mem_keys_update {d entries : List (κ × α)} {h : η} :
    h ∈ keys hash (update hash d entries) ↔ h ∈ keys hash d ∨ h ∈ keys hash entries := by
  induction entries generalizing d with
  | nil => simp [update, keys]
  | cons e entries ih =>
    show h ∈ keys hash (update hash (set hash d e.1 e.2) entries) ↔ _ ∨ h ∈ hash e.1 :: keys hash entries
    rw [ih, mem_keys_set, List.mem_cons, or_assoc]

theorem nodup_keys_set {d : List (κ × α)} (hd : (keys hash d).Nodup) (k : κ) (v : α) :
    (keys hash (set hash d k v)).Nodup := by
  induction d with
  | nil => exact List.nodup_singleton _
  | cons e d ih =>
    have hcons : hash e.1 ∉ keys hash d ∧ (keys hash d).Nodup := List.nodup_cons.mp hd
    rw [set]
    split
    · exact hd
    · rename_i hk
      refine List.nodup_cons.mpr ⟨fun hmem => ?_, ih hcons.2⟩
      rcases mem_keys_set.mp hmem with hmem | hmem
      · exact hcons.1 hmem
      · exact hk hmem

theorem nodup_keys_update {d : List (κ × α)} (hd : (keys hash d).Nodup) (entries : List (κ × α)) :
    (keys hash (update hash d entries)).Nodup := by
  induction entries generalizing d with
  | nil => exact hd
  | cons e entries ih => exact ih (nodup_keys_set hd e.1 e.2)

theorem set_of_notMem {d : List (κ × α)} {k : κ} (hk : hash k ∉ keys hash d) (v : α) :
    set hash d k v = d ++ [(k, v)] := by
  induction d with
  | nil => rfl
  | cons e d ih =>
    have hcons : hash k ≠ hash e.1 ∧ hash k ∉ keys hash d := not_or.mp (mt List.mem_cons.mpr hk)
    rw [set, if_neg (Ne.symm hcons.1), ih hcons.2]
    rfl

/-- Entries with different keys are all kept. -/
theorem update_of_nodup {d entries : List (κ × α)} (h : (keys hash (d ++ entries)).Nodup) :
    update hash d entries = d ++ entries := by
  induction entries generalizing d with
  | nil => exact (List.append_nil d).symm
  | cons e entries ih =>
    have hshift : d ++ e :: entries = d ++ [e] ++ entries := by simp
    have hnew : hash e.1 ∉ keys hash d := by
      unfold keys at h ⊢
      rw [List.map_append, List.map_cons, List.nodup_middle, List.nodup_cons, List.mem_append, not_or] at h
      exact h.1.1
    show update hash (set hash d e.1 e.2) entries = _
    rw [set_of_notMem hnew, hshift]
    exact ih (hshift ▸ h)

/-- A key that is there has a value. -/
theorem get_isSome {d : List (κ × α)} {h : η} : (get hash d h).isSome = true ↔ h ∈ keys hash d := by
  induction d with
  | nil => simp [get, keys]
  | cons e d ih =>
    rw [get_cons]
    show _ ↔ h ∈ hash e.1 :: keys hash d
    rw [List.mem_cons, ← ih]
    split
    · rename_i he
      exact iff_of_true rfl (.inl he.symm)
    · rename_i he
      exact (or_iff_right (Ne.symm he)).symm

/-- What is found is in an entry with the key. -/
theorem mem_of_get {d : List (κ × α)} {h : η} {v : α} (hget : get hash d h = some v) :
    ∃ e ∈ d, hash e.1 = h ∧ e.2 = v := by
  obtain ⟨e, he, hv⟩ := Option.map_eq_some_iff.mp hget
  exact ⟨e, List.mem_of_find?_eq_some he, of_decide_eq_true (List.find?_some he :), hv⟩

/-- Where no key is twice, every entry is found. -/
theorem get_of_mem {d : List (κ × α)} (hd : (keys hash d).Nodup) {e : κ × α} (he : e ∈ d) :
    get hash d (hash e.1) = some e.2 := by
  obtain ⟨v, hv⟩ := Option.isSome_iff_exists.mp (get_isSome.mpr (List.mem_map_of_mem he : hash e.1 ∈ keys hash d))
  obtain ⟨e', he', hhash, rfl⟩ := mem_of_get hv
  rw [hv, List.inj_on_of_nodup_map hd he' he hhash]

/-- A key that all entries give the same value. -/
theorem get_update_of_mem {d entries : List (κ × α)} {h : η} {v : α} (hmem : ∃ e ∈ entries, hash e.1 = h)
    (hall : ∀ e ∈ entries, hash e.1 = h → e.2 = v) : get hash (update hash d entries) h = some v := by
  induction entries generalizing d with
  | nil =>
    obtain ⟨e, he, -⟩ := hmem
    cases he
  | cons e entries ih =>
    rw [List.forall_mem_cons] at hall
    show get hash (update hash (set hash d e.1 e.2) entries) h = some v
    by_cases hlater : ∃ e' ∈ entries, hash e'.1 = h
    · exact ih hlater hall.2
    · have hfirst : hash e.1 = h := by
        obtain ⟨e', he', hh⟩ := hmem
        rcases List.mem_cons.mp he' with rfl | he'
        · exact hh
        · exact absurd ⟨e', he', hh⟩ hlater
      have hnone : get hash (update hash [] entries) h = none := by
        rw [← Option.not_isSome_iff_eq_none, get_isSome, mem_keys_update]
        rintro (hkey | hkey)
        · cases hkey
        · obtain ⟨e', he', hh⟩ := List.mem_map.mp hkey
          exact hlater ⟨e', he', hh⟩
      rw [get_update, hnone, Option.none_or, get_set, if_pos hfirst, hall.1 hfirst]

/-- The last entry of a key counts, and else what there was. -/
theorem get_update_getLast (d entries : List (κ × α)) (h : η) :
    get hash (update hash d entries) h =
      ((entries.filter fun e => decide (hash e.1 = h)).getLast?.map Prod.snd).or (get hash d h) := by
  induction entries generalizing d with
  | nil => rfl
  | cons e entries ih =>
    show get hash (update hash (set hash d e.1 e.2) entries) h = _
    rw [ih, get_set, List.filter_cons]
    by_cases he : hash e.1 = h
    · rw [if_pos he, if_pos (decide_eq_true he), List.getLast?_cons]
      cases (entries.filter fun e => decide (hash e.1 = h)).getLast? <;> rfl
    · rw [if_neg he, if_neg (by simpa using he)]

/-- What holds of the values set. -/
theorem forall_set {P : α → Prop} {d : List (κ × α)} (hd : ∀ e ∈ d, P e.2) (k : κ) {v : α} (hv : P v) :
    ∀ e ∈ set hash d k v, P e.2 := by
  induction d with
  | nil => exact List.forall_mem_singleton.mpr hv
  | cons e d ih =>
    rw [List.forall_mem_cons] at hd
    rw [set]
    split
    · exact List.forall_mem_cons.mpr ⟨hv, hd.2⟩
    · exact List.forall_mem_cons.mpr ⟨hd.1, ih hd.2⟩

theorem forall_update {P : α → Prop} {d entries : List (κ × α)} (hd : ∀ e ∈ d, P e.2) (he : ∀ e ∈ entries, P e.2) :
    ∀ e ∈ update hash d entries, P e.2 := by
  induction entries generalizing d with
  | nil => exact hd
  | cons e entries ih =>
    rw [List.forall_mem_cons] at he
    exact ih (forall_set hd e.1 he.1) he.2

end Hawal.Lib.Dict
