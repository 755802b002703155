import Hawal.Lib.Bytes
import Mathlib.Data.List.TakeWhile

/-!
# Self-delimiting messages on a byte stream

A `Framing` is a way of laying messages out on a stream together with a reader
that takes one message off the front: the reader gives back each message it
accepts and stops exactly at its end (`get_put`), rejects the others (`get_bad`),
and on part of a message asks for more bytes of that same message (`get_part`).

* `readN_put`, `reads_flatten` — reading a concatenation of messages gives back the
  messages up to the first one the reader rejects.
* `Partial` — a reader on a live connection holds part of the first message still
  to come. Taking more bytes keeps that so (`Partial.take`), and when the reader
  accepts what it holds, it holds exactly that message (`Partial.complete`).
-/

namespace Hawal.Lib

/-- Messages `α`, laid out as lists of `β`, of which a reader gets back items `ι`. -/
structure Framing (α ι β ε : Type*) where
  /-- The message on the wire. -/
  put : α → List β
  /-- What the reader is to get back. -/
  item : α → ι
  /-- The reader: one item off the front, and the rest. -/
  get : List β → Except (Stop ε) (ι × List β)
  /-- The messages the reader accepts. -/
  Readable : α → Prop
  get_nil : ∃ m, get [] = .error (.short m)
  get_put : ∀ {a} rest, Readable a → get (put a ++ rest) = .ok (item a, rest)
  get_bad : ∀ {a} rest, ¬ Readable a → ∃ e, get (put a ++ rest) = .error (.bad e)
  get_part : ∀ {a} p q, put a = p ++ q → q ≠ [] →
    (∃ m, get p = .error (.short m) ∧ 0 < m ∧ m ≤ q.length) ∨ ∃ e, get p = .error (.bad e)

namespace Framing

variable {α ι β ε : Type*} (F : Framing α ι β ε)

/-- The wire image of a list of messages. -/
def puts (as : List α) : List β := (as.map F.put).flatten

@[simp] theorem puts_nil : F.puts [] = [] := rfl

@[simp] theorem puts_cons (a : α) (as : List α) : F.puts (a :: as) = F.put a ++ F.puts as := rfl

@[simp] theorem puts_append (as bs : List α) : F.puts (as ++ bs) = F.puts as ++ F.puts bs := by
  simp [puts]

/-- `n` reads one after the other: the items, and what is left. -/
def readN : ℕ → List β → Except (Stop ε) (List ι × List β)
  | 0, bs => .ok ([], bs)
  | n + 1, bs =>
    match F.get bs with
    | .error e => .error e
    | .ok (i, rest) =>
      match readN n rest with
      | .error e => .error e
      | .ok (is, rest) => .ok (i :: is, rest)

/-- Messages the reader accepts come back in order, each read stopping at its end. -/
theorem readN_put {as : List α} (h : ∀ a ∈ as, F.Readable a) (rest : List β) :
    F.readN as.length (F.puts as ++ rest) = .ok (as.map F.item, rest) := by
  induction as with
  | nil => rfl
  | cons a as ih =>
    have ha : F.Readable a := h a List.mem_cons_self
    have has : ∀ b ∈ as, F.Readable b := fun b hb => h b (List.mem_cons_of_mem a hb)
    simp only [List.length_cons, puts_cons, List.append_assoc, readN, F.get_put _ ha, ih has,
      List.map_cons]

/-- **Reading a concatenation** gives back the messages before the first one the
reader rejects, using exactly their bytes, and the next read is an error. -/
theorem reads_flatten [DecidablePred F.Readable] (as : List α) (rest : List β) :
    F.readN (as.takeWhile F.Readable).length (F.puts as ++ rest) =
        .ok ((as.takeWhile F.Readable).map F.item, F.puts (as.dropWhile F.Readable) ++ rest) ∧
      ∀ a as', as.dropWhile F.Readable = a :: as' →
        ∃ e, F.get (F.puts (as.dropWhile F.Readable) ++ rest) = .error (.bad e) := by
  constructor
  · have hok : ∀ a ∈ as.takeWhile F.Readable, F.Readable a := fun a ha => by
      simpa using List.mem_takeWhile_imp ha
    have hsplit : F.puts as ++ rest =
        F.puts (as.takeWhile F.Readable) ++ (F.puts (as.dropWhile F.Readable) ++ rest) := by
      rw [← List.append_assoc, ← puts_append, List.takeWhile_append_dropWhile]
    rw [hsplit]
    exact F.readN_put hok _
  · intro a as' h
    have ha : ¬ F.Readable a := by
      have := List.head?_dropWhile_not (fun b => decide (F.Readable b)) as
      simpa [h] using this
    rw [h, puts_cons, List.append_assoc]
    exact F.get_bad _ ha

/-- Reads until the input is used up, `fuel` at most: the items, when each read gives one. -/
def readAll : ℕ → List β → Option (List ι)
  | _, [] => some []
  | 0, _ :: _ => none
  | fuel + 1, b :: bs =>
    match F.get (b :: bs) with
    | .error _ => none
    | .ok (i, rest) => (readAll fuel rest).map fun is => i :: is

theorem put_ne_nil {a : α} (h : F.Readable a) : F.put a ≠ [] := by
  intro hnil
  obtain ⟨m, hm⟩ := F.get_nil
  have hget := F.get_put [] h
  rw [hnil, List.nil_append, hm] at hget
  cases hget

/-- **Messages are told apart**: reading until nothing is left gives back all of them. -/
theorem readAll_puts {as : List α} (h : ∀ a ∈ as, F.Readable a) {fuel : ℕ} (hfuel : as.length ≤ fuel) :
    F.readAll fuel (F.puts as) = some (as.map F.item) := by
  induction as generalizing fuel with
  | nil =>
    rw [puts_nil]
    cases fuel <;> rfl
  | cons a as ih =>
    rw [List.forall_mem_cons] at h
    cases fuel with
    | zero => exact absurd hfuel (by simp)
    | succ fuel =>
      obtain ⟨b, bs, hput⟩ := List.exists_cons_of_ne_nil (F.put_ne_nil h.1)
      have hget := F.get_put (F.puts as) h.1
      rw [hput, List.cons_append] at hget
      rw [puts_cons, hput, List.cons_append, readAll, hget]
      dsimp only
      rw [ih h.2 (Nat.le_of_succ_le_succ hfuel)]
      rfl

/-- There are no more messages than units on the wire. -/
theorem length_le_length_puts {as : List α} (h : ∀ a ∈ as, F.Readable a) : as.length ≤ (F.puts as).length := by
  induction as with
  | nil => exact Nat.le_refl 0
  | cons a as ih =>
    rw [List.forall_mem_cons] at h
    have hpos : 0 < (F.put a).length := List.length_pos_of_ne_nil (F.put_ne_nil h.1)
    have hrest := ih h.2
    rw [puts_cons, List.length_append, List.length_cons]
    omega

/-- What the reader accepts off the front of messages is the first of them. -/
theorem get_puts_eq_ok {as : List α} {i : ι} {rest : List β} (h : F.get (F.puts as) = .ok (i, rest)) :
    ∃ a as', as = a :: as' ∧ F.Readable a ∧ i = F.item a ∧ rest = F.puts as' := by
  cases as with
  | nil =>
    obtain ⟨m, hm⟩ := F.get_nil
    rw [puts_nil, hm] at h
    cases h
  | cons a as =>
    rw [puts_cons] at h
    by_cases ha : F.Readable a
    · rw [F.get_put _ ha] at h
      cases h
      exact ⟨a, as, rfl, ha, rfl, rfl⟩
    · obtain ⟨e, he⟩ := F.get_bad (F.puts as) ha
      rw [he] at h
      cases h

/-- Messages that the reader accepts are the first of any that begin with the same bytes. -/
theorem items_le {as bs : List α} {rest : List β} (has : ∀ a ∈ as, F.Readable a)
    (h : F.puts as ++ rest <+: F.puts bs) : as.map F.item <+: bs.map F.item := by
  induction as generalizing bs with
  | nil => exact List.nil_prefix
  | cons a as ih =>
    obtain ⟨t, ht⟩ := h
    rw [puts_cons, List.append_assoc, List.append_assoc] at ht
    have hget := F.get_put (F.puts as ++ (rest ++ t)) (has a List.mem_cons_self)
    rw [ht] at hget
    obtain ⟨b, bs', rfl, -, hi, hrest⟩ := F.get_puts_eq_ok hget
    rw [List.map_cons, List.map_cons, hi, List.cons_prefix_cons]
    refine ⟨rfl, ih (fun c hc => has c (List.mem_cons_of_mem a hc)) ⟨t, ?_⟩⟩
    rw [List.append_assoc, hrest]

/-- **Reading what has come so far** of messages gives back the first of them, and then fails. -/
theorem readN_of_prefix {as : List α} (has : ∀ a ∈ as, F.Readable a) :
    ∀ {bs : List β}, bs <+: F.puts as →
      ∃ k rest, F.readN k bs = .ok ((as.take k).map F.item, rest) ∧ ∃ e, F.get rest = .error e := by
  induction as with
  | nil =>
    intro bs hbs
    obtain ⟨m, hm⟩ := F.get_nil
    exact ⟨0, [], by rw [List.prefix_nil.mp hbs]; rfl, _, hm⟩
  | cons a as ih =>
    intro bs hbs
    rw [List.forall_mem_cons] at has
    obtain ⟨t, ht⟩ := hbs
    rw [puts_cons] at ht
    rcases List.append_eq_append_iff.mp ht with ⟨q, hq, -⟩ | ⟨more, rfl, hmore⟩
    · by_cases hq0 : q = []
      · -- all of the first message has come, and nothing of the next
        subst hq0
        obtain ⟨m, hm⟩ := F.get_nil
        have hget := F.get_put [] has.1
        rw [hq, List.append_nil, List.append_nil] at hget
        exact ⟨1, [], by simp only [readN, hget, List.take_succ_cons, List.take_zero, List.map_cons, List.map_nil], _, hm⟩
      · refine ⟨0, bs, rfl, ?_⟩
        rcases F.get_part bs q hq hq0 with ⟨m, hm, -⟩ | ⟨e, he⟩
        · exact ⟨_, hm⟩
        · exact ⟨_, he⟩
    · obtain ⟨k, rest, hread, hrest⟩ := ih has.2 ⟨t, hmore.symm⟩
      refine ⟨k + 1, rest, ?_, hrest⟩
      simp only [readN, F.get_put more has.1, hread, List.take_succ_cons, List.map_cons]

/-- On a whole message the reader does not ask for more. -/
theorem get_put_ne_short (a : α) (m : ℕ) : F.get (F.put a) ≠ .error (.short m) := by
  have happ : F.get (F.put a) = F.get (F.put a ++ []) := by rw [List.append_nil]
  rw [happ]
  by_cases ha : F.Readable a
  · rw [F.get_put [] ha]
    exact fun h => nomatch h
  · obtain ⟨e, he⟩ := F.get_bad [] ha
    rw [he]
    exact fun h => nomatch h

/-- What a reader holds while the messages `as` are still to come: nothing, or part of
the first of them. -/
def Partial (held : List β) (as : List α) : Prop := held = [] ∨ ∃ a as', as = a :: as' ∧ held <+: F.put a

theorem Partial.append {held : List β} {as : List α} (h : F.Partial held as) (bs : List α) :
    F.Partial held (as ++ bs) := by
  rcases h with rfl | ⟨a, as', rfl, hp⟩
  · exact .inl rfl
  · exact .inr ⟨a, as' ++ bs, rfl, hp⟩

/-- Taking at most the bytes the reader asks for keeps to the message it is in. -/
theorem Partial.take {held more : List β} {as : List α} {m : ℕ} (h : F.Partial held as)
    (hwire : held ++ more <+: F.puts as) (hget : F.get held = .error (.short m))
    (hm : more.length ≤ m) : F.Partial (held ++ more) as := by
  cases as with
  | nil =>
    have hnil : held ++ more = [] := List.prefix_nil.mp (by simpa using hwire)
    exact .inl hnil
  | cons a as =>
    have hp : held <+: F.put a := by
      rcases h with rfl | ⟨b, bs, hb, hp⟩
      · exact List.nil_prefix
      · rw [List.cons.injEq] at hb
        exact hb.1 ▸ hp
    obtain ⟨q, hq⟩ := hp
    have hq0 : q ≠ [] := by
      rintro rfl
      rw [List.append_nil] at hq
      exact F.get_put_ne_short a m (hq ▸ hget)
    have hlen : more.length ≤ q.length := by
      rcases F.get_part held q hq.symm hq0 with ⟨m', hm', -, hle⟩ | ⟨e, he⟩
      · rw [hget, Except.error.injEq, Stop.short.injEq] at hm'
        omega
      · rw [hget] at he
        exact nomatch he
    refine .inr ⟨a, as, rfl, ?_⟩
    rw [puts_cons, ← hq, List.append_assoc, List.prefix_append_right_inj] at hwire
    rw [← hq, List.prefix_append_right_inj]
    exact List.prefix_of_prefix_length_le hwire (List.prefix_append q _) hlen

/-- When the reader accepts what it holds, that is the first message, whole. -/
theorem Partial.complete {held rest : List β} {as : List α} {i : ι} (h : F.Partial held as)
    (hget : F.get held = .ok (i, rest)) :
    ∃ a as', as = a :: as' ∧ F.Readable a ∧ held = F.put a ∧ i = F.item a ∧ rest = [] := by
  rcases h with rfl | ⟨a, as', rfl, q, hq⟩
  · obtain ⟨m, hm⟩ := F.get_nil
    rw [hm] at hget
    exact nomatch hget
  · have hq0 : q = [] := by
      by_contra hne
      rcases F.get_part held q hq.symm hne with ⟨m, hm, -⟩ | ⟨e, he⟩
      · rw [hget] at hm
        exact nomatch hm
      · rw [hget] at he
        exact nomatch he
    subst hq0
    rw [List.append_nil] at hq
    have hread : F.Readable a := by
      by_contra hne
      obtain ⟨e, he⟩ := F.get_bad [] hne
      rw [List.append_nil, ← hq, hget] at he
      exact nomatch he
    have := F.get_put [] hread
    rw [List.append_nil, ← hq, hget, Except.ok.injEq, Prod.mk.injEq] at this
    exact ⟨a, as', rfl, hread, hq, this.1, this.2⟩

end Framing

end Hawal.Lib
