import Hawal.Lib.Path

/-!
# The panel's static files

`route_request` answers `GET /static/…` with the file that the rest of the path names under
`STATIC_DIR`. The rest is joined to the directory as it is: `..` segments are not looked at, and
`os.path.join` drops the directory when the rest is absolute, as in `/static//etc/shadow`.
`serve_static_file` then sends whatever file there is.

`confined_iff` says for which paths the answer is nevertheless a file of the directory or a 404.
-/

namespace Hawal.Panel

open Hawal.Lib Hawal.Lib.Python

/-- `STATIC_DIR`: `os.path.abspath` has made a path of names of it. -/
structure StaticDir where
  names : List Str
  proper : ∀ n ∈ names, IsName n
  notRoot : names ≠ []

namespace StaticDir

/-- Its path. -/
def path (dir : StaticDir) : Str := pathOf dir.names

end StaticDir

/-- What the panel is told about files. -/
structure Files where
  /-- `os.path.exists`. -/
  found : Str → Bool
  /-- `os.path.isdir`. -/
  isDir : Str → Bool
  /-- The content; `none` when guessing the type, opening or reading raises. -/
  read : Str → Option (List ℕ)

/-- The files of a tree. -/
def Files.ofTree (t : Tree) : Files where
  found := fun path => (t.entry path).isSome
  isDir := fun path => t.entry path == some .dir
  read := fun path =>
    match t.entry path with
    | some (.file content) => some content
    | _ => none

/-- The answer to a request for a static file. -/
inductive Answer where
  /-- The file's content. -/
  | sent (filepath : Str) (content : List ℕ)
  | notFound
  /-- An exception: status 500. -/
  | failed
  deriving DecidableEq

/-- `s.replace(old, "", 1)`. -/
def removeFirst (old : Str) : Str → Str
  | [] => []
  | c :: rest => if old.isPrefixOf (c :: rest) then (c :: rest).drop old.length else c :: removeFirst old rest

/-- `serve_static_file`. -/
def serveStaticFile (files : Files) (filepath : Str) : Answer :=
  if !files.found filepath || files.isDir filepath then .notFound
  else
    match files.read filepath with
    | some content => .sent filepath content
    | none => .failed

/-- The path that a request is about. -/
def staticPath (dir : StaticDir) (path : Str) : Str := pathJoin dir.path (removeFirst (str "/static/") path)

/-- `route_request` for `GET` and a path that starts with `/static/`; `none` for another path. -/
def routeStatic (dir : StaticDir) (files : Files) (path : Str) : Option Answer :=
  if (str "/static/").isPrefixOf path then some (serveStaticFile files (staticPath dir path)) else none

/-- The answer is a file of the directory, or a 404. -/
def Answer.Confined (dir : StaticDir) : Answer → Prop
  | .sent filepath _ => dir.names <+: location filepath
  | .notFound => True
  | .failed => False

/-- There is a file at the path. -/
def Files.Present (files : Files) (filepath : Str) : Prop :=
  files.found filepath = true ∧ files.isDir filepath = false

/-- The rest of the path comes back down by the names of the directories that it goes up from: by
all of them when it is absolute. -/
def ComesBack (dir : StaticDir) (rest : Str) : Prop :=
  let c := climb (segments rest)
  if isAbsolute rest then dir.names <+: c.names else dir.names.drop (dir.names.length - c.ups) <+: c.names

instance (dir : StaticDir) (rest : Str) : Decidable (ComesBack dir rest) :=
  inferInstanceAs
    (Decidable (if isAbsolute rest then dir.names <+: (climb (segments rest)).names
      else dir.names.drop (dir.names.length - (climb (segments rest)).ups) <+: (climb (segments rest)).names))

theorem StaticDir.path_cons (dir : StaticDir) : ∃ rest, dir.path = 47 :: rest := by
  obtain ⟨n, names, h⟩ := List.exists_cons_of_ne_nil dir.notRoot
  exact ⟨n ++ pathOf names, by rw [path, h, pathOf, List.flatMap_cons]; rfl⟩

/-- The path does not end with a slash. -/
theorem StaticDir.getLast?_path (dir : StaticDir) : dir.path.getLast? ≠ some 47 := by
  obtain ⟨names, n, h⟩ : ∃ names n, dir.names = names ++ [n] :=
    ⟨_, _, (List.dropLast_append_getLast dir.notRoot).symm⟩
  have hn : IsName n := dir.proper n (by rw [h]; exact List.mem_append_right _ List.mem_cons_self)
  have hpath : dir.path = (pathOf names ++ [47]) ++ n := by
    rw [path, h, pathOf, List.flatMap_append, List.flatMap_singleton, List.append_assoc]
    rfl
  intro hlast
  rw [hpath, List.getLast?_append_of_ne_nil _ hn.1] at hlast
  exact hn.2.2.2 (List.mem_of_getLast? hlast)

/-- The directory's path and a slash stand before a rest that is relative. -/
theorem pathJoin_path (dir : StaticDir) (rest : Str) :
    pathJoin dir.path rest = if isAbsolute rest then rest else pathOf dir.names ++ 47 :: rest := by
  obtain ⟨tail, htail⟩ := dir.path_cons
  have hsep : (dir.path.isEmpty || dir.path.getLast? == some 47) = false := by
    rw [Bool.or_eq_false_iff, beq_eq_false_iff_ne]
    exact ⟨by rw [htail]; rfl, dir.getLast?_path⟩
  unfold pathJoin
  rw [hsep]
  split
  · rfl
  · rw [if_neg Bool.false_ne_true, List.append_assoc]
    rfl

/-- **Where a request leads**: inside the directory exactly if the rest comes back. -/
theorem prefix_location_iff (dir : StaticDir) (rest : Str) :
    dir.names <+: location (pathJoin dir.path rest) ↔ ComesBack dir rest := by
  rw [pathJoin_path, ComesBack]
  split
  · rw [location, resolve_root]
  · rw [location_pathOf_append dir.proper, prefix_resolve_iff]

/-- What is taken off the path is its start. -/
theorem removeFirst_of_isPrefixOf {old path : Str} (h : old.isPrefixOf path = true) :
    removeFirst old path = path.drop old.length := by
  cases path with
  | nil => rw [removeFirst, List.drop_nil]
  | cons c rest => rw [removeFirst, if_pos h]

theorem confined_serveStaticFile {dir : StaticDir} {files : Files} {filepath : Str} :
    (serveStaticFile files filepath).Confined dir ↔
      (files.Present filepath → dir.names <+: location filepath ∧ (files.read filepath).isSome = true) := by
  unfold serveStaticFile Files.Present
  cases hfound : files.found filepath with
  | false => simp [Answer.Confined]
  | true =>
    cases hdir : files.isDir filepath with
    | true => simp [Answer.Confined]
    | false =>
      cases hread : files.read filepath with
      | none => simp [Answer.Confined]
      | some content => simp [Answer.Confined]

/-- **When static serving is confined**: the answer to a path is a file of the directory or a 404
exactly if there is no file at the joined path, or the rest of the path comes back to the directory
and the file can be read. -/
theorem confined_iff {dir : StaticDir} {files : Files} {path : Str} {answer : Answer}
    (h : routeStatic dir files path = some answer) :
    answer.Confined dir ↔
      (files.Present (staticPath dir path) →
        ComesBack dir (path.drop 8) ∧ (files.read (staticPath dir path)).isSome = true) := by
  unfold routeStatic at h
  split at h
  · rename_i hstatic
    cases h
    have hrest : staticPath dir path = pathJoin dir.path (path.drop 8) := by
      rw [staticPath, removeFirst_of_isPrefixOf hstatic]
      rfl
    rw [confined_serveStaticFile, hrest, prefix_location_iff]
  · cases h

/-- In a tree, what is sent is the file at the place where the path leads. -/
theorem ofTree_read {t : Tree} {path : Str} {content : List ℕ} (h : (Files.ofTree t).read path = some content) :
    t (location path) = some (.file content) := by
  unfold Files.ofTree at h
  dsimp only at h
  split at h
  · rename_i content' hentry
    cases h
    obtain ⟨loc, hwalk, hloc⟩ := Option.bind_eq_some_iff.mp hentry
    rw [Tree.walk_eq_resolve hwalk] at hloc
    exact hloc
  · cases h

/-! ### A panel in `/opt/hawal-panel` -/

/-- Its directory of static files. -/
def optStatic : StaticDir where
  names := [str "opt", str "hawal-panel", str "app", str "static"]
  proper := by decide
  notRoot := by decide

/-- The agent's source under the directory, and the database of the panel in the home of root. -/
def panelTree : Tree := fun loc =>
  if loc <+: optStatic.names ++ [str "js"] ∨ loc <+: [str "root", str ".hawal"] then some .dir
  else if loc = optStatic.names ++ [str "js", str "agent.py"] then some (.file (str "#!/usr/bin/env python3"))
  else if loc = [str "root", str ".hawal", str "hawal.db"] then some (.file (str "SQLite format 3"))
  else none

/-- The database is sent, by `..` segments and by an absolute rest. -/
theorem static_not_confined :
    (∃ answer, routeStatic optStatic (Files.ofTree panelTree) (str "/static/../../../../root/.hawal/hawal.db") =
        some answer ∧ (∃ filepath, answer = .sent filepath (str "SQLite format 3")) ∧ ¬ answer.Confined optStatic) ∧
    ∃ answer, routeStatic optStatic (Files.ofTree panelTree) (str "/static//root/.hawal/hawal.db") =
        some answer ∧ (∃ filepath, answer = .sent filepath (str "SQLite format 3")) ∧ ¬ answer.Confined optStatic := by
  constructor
  · refine ⟨.sent (optStatic.path ++ str "/../../../../root/.hawal/hawal.db") (str "SQLite format 3"), ?_, ⟨_, rfl⟩, ?_⟩
    · decide +kernel
    · show ¬ optStatic.names <+: location _
      decide +kernel
  · refine ⟨.sent (str "/root/.hawal/hawal.db") (str "SQLite format 3"), ?_, ⟨_, rfl⟩, ?_⟩
    · decide +kernel
    · show ¬ optStatic.names <+: location _
      decide +kernel

/-- A path that goes up and comes back. -/
theorem static_confined_run :
    (Answer.sent (optStatic.path ++ str "/../static/./js//agent.py") (str "#!/usr/bin/env python3")).Confined
      optStatic := by
  have hroute : routeStatic optStatic (Files.ofTree panelTree) (str "/static/../static/./js//agent.py") =
      some (.sent (optStatic.path ++ str "/../static/./js//agent.py") (str "#!/usr/bin/env python3")) := by
    decide +kernel
  exact (confined_iff hroute).mpr fun _ => by decide +kernel

end Hawal.Panel
