import Seashell.FileTree.Basic
import Seashell.Path
import Seashell.Selection

set_option autoImplicit false

/-! # Workspaces

A `Workspace` is a `FileTree` with a current directory, from which paths that do not start at the
root are followed. Everything is asked for by the text of a path: `Workspace.locate` turns it into a
route, or says what stands in the way, and `Workspace.entry`, `Workspace.look`, `Workspace.read` and
`Workspace.write` go on from there. They differ in what they make of an obstacle: a look at a path
where nothing can be found finds nothing, while reading and writing fail with a `SystemFault`.

`Workspace.listFiles` walks through a directory. `Workspace.walk` opens one directory after the
other by the text of its path, takes the wanted files in the order of their names
(`Workspace.filesIn`), and then goes on to the subdirectories in the order of theirs
(`Workspace.directoriesIn`). A directory that cannot be opened is passed over without a word. Below
the directory it starts from that only happens where the text of the path gets too long, and so the
walk comes to an end. -/

namespace Seashell

open Text

/-- A `path` at which there is nothing to open. -/
structure SystemFault where
  obstacle : FileTree.Obstacle
  path : Text
deriving Repr, DecidableEq

/-- The wording of a `SystemFault`, with the number of the system's error. -/
def SystemFault.message (f : SystemFault) : Text :=
  (match f.obstacle with
    | .notFound => "[Errno 2] No such file or directory: "
    | .notDirectory => "[Errno 20] Not a directory: "
    | .isDirectory => "[Errno 21] Is a directory: "
    | .tooLong => "[Errno 36] File name too long: "
    | .nul => "embedded null byte: ") ++ literal f.path

/-- A `FileTree` and the current directory in it. -/
structure Workspace where
  tree : FileTree
  here : Path
deriving DecidableEq

namespace Workspace

/-- The parts that the text `path` goes through; a slash at the end asks for a directory. -/
def stepsOf (path : Text) : List Text :=
  (List.splitOn '/' path).filter (!·.isEmpty) ++ (if endsWith path ['/'] then [['.']] else [])

/-- The route that the text `path` stands for. The empty text stands for none. -/
def locate (w : Workspace) (path : Text) : Except FileTree.Obstacle Route :=
  if path.contains '\x00' then .error .nul
  else if FileTree.pathLimit < FileTree.byteLength path then .error .tooLong
  else match path with
    | [] => .error .notFound
    | '/' :: _ => w.tree.follow [] (stepsOf path)
    | _ => w.tree.follow w.here.parts (stepsOf path)

/-- What the text `path` leads to, at the end of the route that `locate` finds. -/
def entry (w : Workspace) (path : Text) : Except FileTree.Obstacle Entry :=
  match w.locate path with
  | .error o => .error o
  | .ok r =>
    match w.tree.get? r with
    | some e => .ok e
    | none => .error .notFound

/-- What is at `path`, if anything is. A path that is too long cannot be looked at. -/
def look (w : Workspace) (path : Text) : Except SystemFault (Option Entry) :=
  match w.entry path with
  | .ok e => .ok (some e)
  | .error .tooLong => .error ⟨.tooLong, path⟩
  | .error _ => .ok none

/-- The content of the file at `path`. -/
def read (w : Workspace) (path : Text) : Except SystemFault Bytes :=
  match w.entry path with
  | .ok (.file content) => .ok content
  | .ok .directory => .error ⟨.isDirectory, path⟩
  | .error o => .error ⟨o, path⟩

/-- The workspace with a file at `path` that has the `content`. A directory cannot be written. -/
def write (w : Workspace) (path : Text) (content : Bytes) : Except SystemFault Workspace :=
  match w.locate path with
  | .error o => .error ⟨o, path⟩
  | .ok r =>
    match w.tree.get? r with
    | some .directory => .error ⟨.isDirectory, path⟩
    | _ => .ok { w with tree := w.tree.put r (.file content) }

/-- The path `p` from the root. -/
def absolute (w : Workspace) (p : Path) : Path :=
  match p.start with
  | .here => w.here.child p.text
  | _ => p

/-! ## Listing -/

end Workspace

/-- It is a directory. -/
def Entry.isDirectory : Entry → Bool
  | .directory => true
  | .file _ => false

/-- The name of the entry `e`, if it is in `directory` and of a `sort`. -/
def FileTree.nameIn? (directory : Route) (sort : Entry → Bool) (e : Route × Entry) : Option Text :=
  if e.1.dropLast = directory ∧ sort e.2 = true then e.1.getLast? else none

/-- The names of what is in `directory`, of a `sort`. -/
def FileTree.namesIn (t : FileTree) (directory : Route) (sort : Entry → Bool) : List Text :=
  t.entries.filterMap (nameIn? directory sort)

namespace Workspace

/-- The names of the files in `directory` that are `wanted`, in ascending order. -/
def filesIn (w : Workspace) (directory : Route) (wanted : List Text) : List Text :=
  (sort (w.tree.namesIn directory (!·.isDirectory))).filter (Selection.nameMatches wanted)

/-- The names of the directories in `directory` that are not among `Selection.excluded`, in
    ascending order. -/
def directoriesIn (w : Workspace) (directory : Route) : List Text :=
  sort ((w.tree.namesIn directory (·.isDirectory)).filter (!Selection.excluded.contains ·))

/-- The text by which `name` in a directory is opened, from that of the directory. -/
def textIn (directory name : Text) : Text :=
  directory ++ (if endsWith directory ['/'] then name else '/' :: name)

/-- The directory that the text `path` stands for, if there is one. -/
def directory? (w : Workspace) (path : Text) : Option Route :=
  match w.locate path with
  | .error _ => none
  | .ok r => if w.tree.get? r = some .directory then some r else none

theorem byteLength_append (s t : Text) :
    FileTree.byteLength (s ++ t) = FileTree.byteLength s + FileTree.byteLength t := by
  induction s with
  | nil => simp [FileTree.byteLength]
  | cons c cs ih =>
    simp only [FileTree.byteLength, List.cons_append, List.foldr_cons] at ih ⊢
    omega

theorem byteLength_pos {t : Text} (h : t ≠ []) : 0 < FileTree.byteLength t := by
  obtain ⟨c, cs, rfl⟩ := List.exists_cons_of_ne_nil h
  have hc := c.utf8Size_pos
  simp only [FileTree.byteLength, List.foldr_cons]
  omega

theorem byteLength_lt_textIn (directory : Text) {name : Text} (h : name ≠ []) :
    FileTree.byteLength directory < FileTree.byteLength (textIn directory name) := by
  have hmore : (if endsWith directory ['/'] then name else '/' :: name) ≠ [] := by
    split
    · exact h
    · exact List.cons_ne_nil _ _
  have hpos := byteLength_pos hmore
  rw [textIn, byteLength_append]
  omega

theorem byteLength_le_of_directory? {w : Workspace} {path : Text} {r : Route}
    (h : w.directory? path = some r) : FileTree.byteLength path ≤ FileTree.pathLimit := by
  refine Nat.not_lt.1 fun hlong => ?_
  have hlocate : ∃ o, w.locate path = .error o := by
    unfold locate
    split
    · exact ⟨_, rfl⟩
    · exact ⟨_, rfl⟩
  obtain ⟨o, ho⟩ := hlocate
  simp [directory?, ho] at h

theorem ne_nil_of_mem_directoriesIn {w : Workspace} {directory : Route} {name : Text}
    (h : name ∈ w.directoriesIn directory) : name ≠ [] := by
  rw [directoriesIn, sort, List.mem_mergeSort, List.mem_filter, FileTree.namesIn,
    List.mem_filterMap] at h
  obtain ⟨⟨e, he, hname⟩, _⟩ := h
  rw [FileTree.nameIn?, Option.ite_none_right_eq_some] at hname
  rintro rfl
  exact absurd ((w.tree.named e he).2 _ (List.mem_of_getLast? hname.2)) (by decide)

/-- The walk goes on to longer paths, of which the system takes no more than `FileTree.pathLimit`
    bytes. -/
theorem walk_decreases {w : Workspace} {path : Text} {r : Route} {name : Text}
    (h : w.directory? path = some r) (hname : name ∈ w.directoriesIn r) :
    FileTree.pathLimit + 1 - FileTree.byteLength (textIn path name) <
      FileTree.pathLimit + 1 - FileTree.byteLength path := by
  have hle := byteLength_le_of_directory? h
  have hlt := byteLength_lt_textIn path (ne_nil_of_mem_directoriesIn hname)
  omega

/-- What is found below the directory that `path` stands for: its own wanted files, and then what is
    found in its subdirectories. -/
def walk (w : Workspace) (wanted : List Text) (path : Text) : List Path :=
  match _hpath : w.directory? path with
  | none => []
  | some r =>
    (w.filesIn r wanted).map (Path.ofText path).child ++
      (w.directoriesIn r).attach.flatMap fun name => w.walk wanted (textIn path name.1)
termination_by FileTree.pathLimit + 1 - FileTree.byteLength path
decreasing_by exact walk_decreases _hpath name.2

theorem walk_of_none {w : Workspace} {path : Text} (wanted : List Text)
    (h : w.directory? path = none) : w.walk wanted path = [] := by
  rw [walk]
  split
  · rfl
  · rename_i hsome
    rw [h] at hsome
    cases hsome

theorem walk_of_some {w : Workspace} {path : Text} {r : Route} (wanted : List Text)
    (h : w.directory? path = some r) :
    w.walk wanted path = (w.filesIn r wanted).map (Path.ofText path).child ++
      (w.directoriesIn r).flatMap fun name => w.walk wanted (textIn path name) := by
  rw [walk]
  split
  · rename_i hnone
    rw [h] at hnone
    cases hnone
  · rename_i s hsome
    cases Option.some.inj (hsome.symm.trans h)
    have hplain := List.flatMap_map Subtype.val (fun name => w.walk wanted (textIn path name))
      (w.directoriesIn r).attach
    rw [← hplain, List.attach_map_subtype_val]

/-- The selected files below the directory that `root` stands for, by `walk`; none if there is no
    directory. -/
def listFiles (w : Workspace) (root : Text) (extensions : List Text) :
    Except SystemFault (List Path) :=
  if root.contains '\x00' then .error ⟨.nul, root⟩
  else .ok (w.walk (Selection.normalizeExtensions extensions) root)

end Workspace
end Seashell
