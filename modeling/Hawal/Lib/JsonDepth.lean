import Hawal.Lib.JsonDump

/-!
# How many lists and dicts stand in one another

`json.loads` and `json.dumps` go into lists and dicts by recursion, so that they raise when too many of them stand
in one another. How many are too many depends on the version of Python and on the calls around: it is a parameter,
`room`.

* `loadsWithin` — `json.loads` with room for so many.
* `loadsWithin_dump` — what a dump has written is read again exactly when there is room for the value.
-/

namespace Hawal.Lib.Python

variable {R : FloatReader}

/-- No more than `room` lists and dicts are open at a time. -/
def roomFor : ℕ → List Token → Bool
  | _, [] => true
  | room, .lbracket :: ts => decide (0 < room) && roomFor (room - 1) ts
  | room, .lbrace :: ts => decide (0 < room) && roomFor (room - 1) ts
  | room, .rbracket :: ts => roomFor (room + 1) ts
  | room, .rbrace :: ts => roomFor (room + 1) ts
  | room, .comma :: ts => roomFor room ts
  | room, .colon :: ts => roomFor room ts
  | room, .scalar _ :: ts => roomFor room ts

/-- `json.loads` of a string with room for so many lists and dicts in one another; `none` when it raises. -/
def loadsWithin (R : FloatReader) (room : ℕ) (s : Str) : Option Json :=
  (lex R s).bind fun ts => if roomFor room ts = true then parse ts else none

mutual

/-- No more than `room` lists and dicts stand in one another. -/
def Json.shallow (room : ℕ) : Json → Bool
  | .list xs => decide (0 < room) && itemsShallow (room - 1) xs
  | .dict fs => decide (0 < room) && fieldsShallow (room - 1) fs
  | _ => true

/-- Each item is shallow. -/
def itemsShallow (room : ℕ) : List Json → Bool
  | [] => true
  | x :: xs => x.shallow room && itemsShallow room xs

/-- Each value is shallow. -/
def fieldsShallow (room : ℕ) : Fields → Bool
  | [] => true
  | (_, v) :: fs => v.shallow room && fieldsShallow room fs

end

theorem fieldsShallow_iff {room : ℕ} {fs : Fields} :
    fieldsShallow room fs = true ↔ ∀ f ∈ fs, f.2.shallow room = true := by
  induction fs with
  | nil => exact iff_of_true rfl (List.forall_mem_nil _)
  | cons f fs ih => rw [fieldsShallow, Bool.and_eq_true, ih, List.forall_mem_cons]

theorem loads_of_loadsWithin {room : ℕ} {s : Str} {v : Json} (h : loadsWithin R room s = some v) :
    loads R s = some v := by
  obtain ⟨ts, hlex, hparse⟩ := Option.bind_eq_some_iff.mp h
  rw [Option.ite_none_right_eq_some] at hparse
  exact Option.bind_eq_some_iff.mpr ⟨ts, hlex, hparse.2⟩

/-! ### What is written -/

/-- What stands between brackets, where there is room for them. -/
theorem room_bracket {room : ℕ} {a b : Bool} {c : ℕ → Bool} (h : a = (b && c (room - 1 + 1))) :
    (decide (0 < room) && a) = (decide (0 < room) && b && c room) := by
  by_cases hroom : 0 < room
  · rw [h, Nat.sub_add_cancel hroom, Bool.and_assoc]
  · rw [decide_eq_false hroom]
    rfl

mutual

/-- There is room for the tokens of a value exactly if there is for the value. -/
theorem roomFor_tokens : ∀ (v : Json) (level room : ℕ) (ts : List Token),
    roomFor room (v.tokens level ++ ts) = (v.shallow room && roomFor room ts)
  | .null, _, _, _ => rfl
  | .bool _, _, _, _ => rfl
  | .int _, _, _, _ => rfl
  | .float _, _, _, _ => rfl
  | .str _, _, _, _ => rfl
  | .list [], _, room, ts => by
    have hopen : roomFor (room - 1) (.rbracket :: ts) = (itemsShallow (room - 1) [] && roomFor (room - 1 + 1) ts) := rfl
    rw [Json.shallow]
    exact room_bracket (c := fun r => roomFor r ts) hopen
  | .dict [], _, room, ts => by
    have hopen : roomFor (room - 1) (.rbrace :: ts) = (fieldsShallow (room - 1) [] && roomFor (room - 1 + 1) ts) := rfl
    rw [Json.shallow]
    exact room_bracket (c := fun r => roomFor r ts) hopen
  | .list (x :: xs), level, room, ts => by
    have hopen := roomFor_tokens x (level + 1) (room - 1)
      (tokensOf (itemParts (level + 1) ⟨str "," ++ newline (level + 1), [.comma], level + 1⟩ xs) ++ .rbracket :: ts)
    rw [roomFor_itemParts xs, roomFor, ← Bool.and_assoc] at hopen
    rw [Json.tokens, Json.parts, tokensOf_append, itemParts_cons, tokensOf_append, tokensOf_itemHead, Json.shallow,
      itemsShallow, List.append_assoc, List.append_assoc, List.append_assoc, List.singleton_append, roomFor]
    exact room_bracket (c := fun r => roomFor r ts) hopen
  | .dict ((k, v) :: fs), level, room, ts => by
    have hopen := roomFor_fieldParts ((k, v) :: fs) (level + 1) (room - 1) ⟨newline (level + 1), [], level + 1⟩ (.inl rfl)
      (.rbrace :: ts)
    rw [roomFor] at hopen
    rw [Json.tokens, Json.parts, tokensOf_append, tokensOf_cons, Json.shallow, List.append_assoc, List.append_assoc,
      List.singleton_append, roomFor]
    exact room_bracket (c := fun r => roomFor r ts) hopen

theorem roomFor_itemParts : ∀ (xs : List Json) (level room : ℕ) (ts : List Token),
    roomFor room (tokensOf (itemParts level ⟨str "," ++ newline level, [.comma], level⟩ xs) ++ ts) =
      (itemsShallow room xs && roomFor room ts)
  | [], _, _, _ => rfl
  | x :: xs, level, room, ts => by
    rw [itemParts_cons, tokensOf_append, tokensOf_itemHead, List.append_assoc, List.append_assoc,
      List.singleton_append, roomFor, roomFor_tokens x, roomFor_itemParts xs, itemsShallow, Bool.and_assoc]

theorem roomFor_fieldParts : ∀ (fs : Fields) (level room : ℕ) (sep : Part), (sep.tokens = [] ∨ sep.tokens = [.comma]) →
    ∀ ts : List Token, roomFor room (tokensOf (fieldParts level sep fs) ++ ts) =
      (fieldsShallow room fs && roomFor room ts)
  | [], _, _, _, _, _ => rfl
  | (k, v) :: fs, level, room, sep, hsep, ts => by
    have hfield := roomFor_tokens v level room
      (tokensOf (fieldParts level ⟨str "," ++ newline level, [.comma], level⟩ fs) ++ ts)
    rw [roomFor_fieldParts fs level room ⟨_, [.comma], _⟩ (.inr rfl), ← Bool.and_assoc] at hfield
    rw [fieldParts_cons, tokensOf_cons, tokensOf_cons, tokensOf_append, tokensOf_fieldHead, fieldsShallow, ← hfield]
    rcases hsep with hsep | hsep
    · rw [hsep]
      simp [roomFor]
    · rw [hsep]
      simp [roomFor]

end

/-- A dump that does not raise is read back when there is room for it. -/
theorem loadsWithin_dump {fs : Fields} (h : ∀ f ∈ fs, Loaded R f.2) {nesting : ℕ}
    (hok : (dump nesting (Json.parts 0 (.dict fs))).2 = true) (room : ℕ) :
    loadsWithin R (room + 1) (dump nesting (Json.parts 0 (.dict fs))).1 =
      if fieldsShallow room fs = true then some (.dict (ofPairs fs)) else none := by
  have hparts : ∀ p ∈ Json.parts 0 (.dict fs), p.Ok nesting := dump_snd.mp hok
  have hreads : ∀ p ∈ Json.parts 0 (.dict fs), p.Reads R := fun p hp => readsAll_dict_parts h p hp (hparts p hp).2
  have hroom := roomFor_tokens (.dict fs) 0 (room + 1) []
  have hshallow : (Json.dict fs).shallow (room + 1) = fieldsShallow room fs := by
    rw [Json.shallow, Nat.add_sub_cancel]
    rfl
  have hnil : roomFor (room + 1) [] = true := rfl
  rw [List.append_nil, Json.tokens, hshallow, hnil, Bool.and_true] at hroom
  rw [loadsWithin, dump_fst hparts, lex_textOf hreads, Option.bind_some, hroom, parse, parseRun_dict h]

/-- Of a dump that raises nothing is read back. -/
theorem loadsWithin_dump_of_raises {fs : Fields} (h : ∀ f ∈ fs, Loaded R f.2) {nesting : ℕ}
    (hraises : (dump nesting (Json.parts 0 (.dict fs))).2 = false) (room : ℕ) :
    loadsWithin R room (dump nesting (Json.parts 0 (.dict fs))).1 = none := by
  refine Option.eq_none_iff_forall_ne_some.mpr fun v hv => ?_
  have hloads := loads_of_loadsWithin hv
  rw [loads_dump_of_raises h hraises] at hloads
  cases hloads

end Hawal.Lib.Python
