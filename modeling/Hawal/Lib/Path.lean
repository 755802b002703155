import Hawal.Lib.Python
import Mathlib.Data.List.Infix
import Mathlib.Algebra.Order.Group.Nat

/-!
# Paths of a file system

A path is a list of segments: names, `.` and `..`. Followed from a directory, a name goes down, `..`
goes up, and stays at the root; a directory is the list of names that lead to it from the root.
`resolve` does that without looking at the file system, which is what the kernel does too as long as
there are no symbolic links (`Tree.walk_eq_resolve`).

A list of segments comes down to going up a number of times and then down by some names (`climb`).
From this follows where a path can lead out of the directory it starts in (`prefix_resolve_iff`).
-/

namespace Hawal.Lib

open Hawal.Lib.Python

/-- A segment of a path. -/
inductive Segment (α : Type) where
  | here
  | up
  | name (n : α)
  deriving DecidableEq

section Resolve

variable {α : Type}

/-- One segment further. -/
def enter (dir : List α) : Segment α → List α
  | .here => dir
  | .up => dir.dropLast
  | .name n => dir ++ [n]

/-- Where the segments lead from a directory. -/
def resolve (dir : List α) (segs : List (Segment α)) : List α := segs.foldl enter dir

theorem resolve_append (dir : List α) (segs segs' : List (Segment α)) :
    resolve dir (segs ++ segs') = resolve (resolve dir segs) segs' := List.foldl_append

theorem resolve_names (dir names : List α) : resolve dir (names.map .name) = dir ++ names := by
  induction names generalizing dir with
  | nil => exact (List.append_nil dir).symm
  | cons n names ih =>
    show resolve (dir ++ [n]) (names.map .name) = _
    rw [ih, List.append_assoc]
    rfl

/-- How often one goes up, and by which names then down. -/
structure Climb (α : Type) where
  ups : ℕ
  names : List α
  deriving DecidableEq

namespace Climb

/-- One segment further. -/
def enter (c : Climb α) : Segment α → Climb α
  | .here => c
  | .up => if c.names.isEmpty then { c with ups := c.ups + 1 } else { c with names := c.names.dropLast }
  | .name n => { c with names := c.names ++ [n] }

/-- Where it leads from a directory. -/
def apply (c : Climb α) (dir : List α) : List α := dir.take (dir.length - c.ups) ++ c.names

theorem enter_apply (c : Climb α) (seg : Segment α) (dir : List α) :
    (c.enter seg).apply dir = Lib.enter (c.apply dir) seg := by
  cases seg with
  | here => rfl
  | name n => exact (List.append_assoc _ _ _).symm
  | up =>
    cases hnames : c.names with
    | nil =>
      have hups : c.enter .up = ⟨c.ups + 1, []⟩ := by simp [Climb.enter, hnames]
      rw [hups, Climb.apply, Climb.apply, hnames, List.append_nil, List.append_nil, Lib.enter,
        List.dropLast_eq_take, List.take_take, List.length_take]
      congr 1
      show dir.length - (c.ups + 1) = _
      omega
    | cons n names =>
      have hdown : c.enter .up = ⟨c.ups, (n :: names).dropLast⟩ := by simp [Climb.enter, hnames]
      rw [hdown, Climb.apply, Climb.apply, hnames, Lib.enter,
        List.dropLast_append_of_ne_nil (List.cons_ne_nil n names)]

end Climb

/-- What the segments come down to. -/
def climb (segs : List (Segment α)) : Climb α := segs.foldl Climb.enter ⟨0, []⟩

theorem foldl_enter_apply (segs : List (Segment α)) (c : Climb α) (dir : List α) :
    (segs.foldl Climb.enter c).apply dir = resolve (c.apply dir) segs := by
  induction segs generalizing c with
  | nil => rfl
  | cons seg segs ih =>
    rw [List.foldl_cons, ih, Climb.enter_apply]
    rfl

/-- Following the segments is going up and then down. -/
theorem resolve_eq_climb (dir : List α) (segs : List (Segment α)) :
    resolve dir segs = dir.take (dir.length - (climb segs).ups) ++ (climb segs).names := by
  have hstart : (⟨0, []⟩ : Climb α).apply dir = dir := by simp [Climb.apply]
  have h := foldl_enter_apply segs ⟨0, []⟩ dir
  rw [hstart] at h
  exact h.symm

/-- At the root there is no way up. -/
theorem resolve_root (segs : List (Segment α)) : resolve [] segs = (climb segs).names := by
  rw [resolve_eq_climb, List.take_nil, List.nil_append]

/-- **What stays inside**: a path stays in the directory it starts in exactly if it comes back
down by the names of the directories that it goes up from. -/
theorem prefix_resolve_iff (dir : List α) (segs : List (Segment α)) :
    dir <+: resolve dir segs ↔ dir.drop (dir.length - (climb segs).ups) <+: (climb segs).names := by
  rw [resolve_eq_climb]
  generalize dir.length - (climb segs).ups = k
  have h := @List.prefix_append_right_inj α (dir.drop k) (climb segs).names (dir.take k)
  rw [List.take_append_drop] at h
  exact h

end Resolve

/-! ### Paths as strings -/

/-- What a piece between two slashes means. -/
def segment (s : Str) : Segment Str :=
  if s = [] ∨ s = str "." then .here else if s = str ".." then .up else .name s

/-- The segments of a path. -/
def segments (path : Str) : List (Segment Str) := (path.splitOn 47).map segment

/-- The path is absolute. -/
def isAbsolute (path : Str) : Bool := path.head? == some 47

/-- `os.path.join(a, b)`. -/
def pathJoin (a b : Str) : Str :=
  if isAbsolute b then b
  else if a.isEmpty || a.getLast? == some 47 then a ++ b
  else a ++ str "/" ++ b

/-- Where an absolute path leads, as far as its text tells. -/
def location (path : Str) : List Str := resolve [] (segments path)

/-- A name of a directory entry. -/
def IsName (n : Str) : Prop := n ≠ [] ∧ n ≠ str "." ∧ n ≠ str ".." ∧ 47 ∉ n

instance (n : Str) : Decidable (IsName n) := inferInstanceAs (Decidable (_ ∧ _ ∧ _ ∧ _))

theorem IsName.segment {n : Str} (h : IsName n) : segment n = .name n := by
  rw [Lib.segment, if_neg (not_or.mpr ⟨h.1, h.2.1⟩), if_neg h.2.2.1]

/-- The path to a directory: a slash before each name. -/
def pathOf (dir : List Str) : Str := dir.flatMap fun n => 47 :: n

theorem splitOn_pathOf_append {dir : List Str} (h : ∀ n ∈ dir, IsName n) (rel : Str) :
    (pathOf dir ++ 47 :: rel).splitOn 47 = [] :: (dir ++ rel.splitOn 47) := by
  -- the slashes stand after the names as well, for the induction
  have hshift : ∀ dir : List Str, pathOf dir ++ 47 :: rel = 47 :: ((dir.flatMap fun n => n ++ [47]) ++ rel) := by
    intro dir
    induction dir with
    | nil => rfl
    | cons n dir ih => simpa [pathOf] using ih
  have hsplit : ∀ dir : List Str, (∀ n ∈ dir, IsName n) →
      ((dir.flatMap fun n => n ++ [47]) ++ rel).splitOn 47 = dir ++ rel.splitOn 47 := by
    intro dir
    induction dir with
    | nil => exact fun _ => rfl
    | cons n dir ih =>
      intro h
      have hn : 47 ∉ n := (h n List.mem_cons_self).2.2.2
      rw [List.flatMap_cons, List.append_assoc, List.append_assoc, List.singleton_append,
        List.splitOn_append_cons_self_of_not_mem hn, ih fun n' hn' => h n' (List.mem_cons_of_mem _ hn')]
      rfl
  rw [hshift, ← List.nil_append (47 :: _), List.splitOn_append_cons_self, hsplit dir h]
  rfl

/-- A relative path is followed from its directory. -/
theorem location_pathOf_append {dir : List Str} (h : ∀ n ∈ dir, IsName n) (rel : Str) :
    location (pathOf dir ++ 47 :: rel) = resolve dir (segments rel) := by
  have hnames : dir.map segment = dir.map .name := List.map_congr_left fun n hn => (h n hn).segment
  rw [location, segments, splitOn_pathOf_append h, List.map_cons, List.map_append, hnames]
  show resolve [] (dir.map .name ++ segments rel) = _
  rw [resolve_append, resolve_names, List.nil_append]

/-! ### A tree of directories and files -/

/-- What there is at a location: nothing, a directory, or a file and its content. -/
inductive Entry where
  | dir
  | file (content : List ℕ)
  deriving DecidableEq

/-- A file system without symbolic links. -/
abbrev Tree := List Str → Option Entry

namespace Tree

/-- How the kernel follows a path: every segment is looked up in a directory. -/
def walk (t : Tree) (dir : List Str) : List (Segment Str) → Option (List Str)
  | [] => if (t dir).isSome then some dir else none
  | seg :: segs => if t dir = some .dir then t.walk (enter dir seg) segs else none

/-- It comes where the text of the path leads. -/
theorem walk_eq_resolve {t : Tree} {segs : List (Segment Str)} :
    ∀ {dir loc : List Str}, t.walk dir segs = some loc → loc = resolve dir segs := by
  induction segs with
  | nil =>
    intro dir loc h
    unfold walk at h
    split at h
    · exact (Option.some.inj h).symm
    · cases h
  | cons seg segs ih =>
    intro dir loc h
    unfold walk at h
    split at h
    · exact ih h
    · cases h

/-- The entry that a path names. -/
def entry (t : Tree) (path : Str) : Option Entry := (t.walk [] (segments path)).bind t

end Tree

end Hawal.Lib
