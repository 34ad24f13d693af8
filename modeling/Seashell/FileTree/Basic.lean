import Seashell.Assoc
import Seashell.Charset.Fault

set_option autoImplicit false

/-! # File trees

The files and directories below a root directory. A `Route` names what it leads to, part by part
from the root down, and a `FileTree` holds an `Entry` for each route that leads anywhere. The root
itself is always a directory and has no entry.

A tree is what a file system can hold, and carries the proof of it: no route occurs twice
(`FileTree.distinct`), every part of a route is a name that the system takes (`FileTree.named`, by
`FileTree.isName`), and whatever there is stands in a directory (`FileTree.rooted`). All trees are
made from `FileTree.empty` by `FileTree.put`, which leaves a tree as it is where an entry would
break one of these (`FileTree.admits`); `FileTree.get?_put` says what is found afterwards. So no
theorem about trees has to ask for a well-formed one.

Trees are read by `FileTree.get?`, and the parts of a path are gone through by `FileTree.follow`,
which stops at the first `FileTree.Obstacle`. There are no links and no permissions: one route leads
to one file, and every file can be read and written. -/

namespace Seashell

/-- The parts to go through from the root down. -/
abbrev Route := List Text

/-- What a `Route` leads to. -/
inductive Entry where
  | file (content : Bytes)
  | directory
deriving Repr, DecidableEq

namespace FileTree

/-! ## Names -/

/-- The number of bytes of `t` in UTF-8. -/
def byteLength (t : Text) : Nat := t.foldr (fun c n => c.utf8Size + n) 0

/-- The bytes that the name of a file may have. -/
def nameLimit : Nat := 255

/-- The bytes that a path may have. -/
def pathLimit : Nat := 4095

/-- The text can be the name of a file: there is something in it, no slash and no NUL character, and
    it has no more bytes than `nameLimit`. -/
def isFileName (t : Text) : Bool :=
  !t.isEmpty && !t.contains '/' && !t.contains '\x00' && decide (byteLength t ≤ nameLimit)

/-- The text names something in a directory: it can be the name of a file (`isFileName`), and is
    neither the dot that stands for the directory itself nor the two that stand for the one
    above. -/
def isName (t : Text) : Bool := isFileName t && t != ['.'] && t != ['.', '.']

/-! ## Entries -/

/-- What the route `r` leads to among some entries; no parts lead to the root, which is a
    directory. -/
def find? (entries : List (Route × Entry)) (r : Route) : Option Entry :=
  if r = [] then some .directory else entries.lookup r

theorem find?_put {entries : List (Route × Entry)} {r : Route} (s : Route) (e : Entry)
    (hr : r ≠ []) :
    find? (Assoc.put r e entries) s = if s = r then some e else find? entries s := by
  by_cases hs : s = []
  · simp [find?, hs, hr.symm]
  · simp [find?, hs]

end FileTree

/-- The entries of a tree by `Route`. -/
structure FileTree where
  entries : List (Route × Entry)
  /-- No route occurs twice. -/
  distinct : (entries.map (·.1)).Nodup
  /-- Routes are made of names (`isName`), and at least of one. -/
  named : ∀ e ∈ entries, e.1 ≠ [] ∧ ∀ part ∈ e.1, FileTree.isName part = true
  /-- Whatever there is stands in a directory. -/
  rooted : ∀ e ∈ entries, FileTree.find? entries e.1.dropLast = some .directory
deriving DecidableEq

namespace FileTree

/-- The tree of an empty root directory. -/
def empty : FileTree :=
  ⟨[], .nil, fun _ h => (List.not_mem_nil h).elim, fun _ h => (List.not_mem_nil h).elim⟩

/-- What the route `r` leads to. -/
def get? (t : FileTree) (r : Route) : Option Entry := find? t.entries r

/-- The entry `e` can be put at the end of the route `r`: the route is made of names, leads on from
    a directory, and a file takes the place of no directory. -/
def admits (t : FileTree) (r : Route) (e : Entry) : Bool :=
  !r.isEmpty && r.all isName && decide (t.get? r.dropLast = some .directory)
    && (decide (e = .directory) || decide (t.get? r ≠ some .directory))

theorem admits_iff {t : FileTree} {r : Route} {e : Entry} :
    t.admits r e = true ↔ r ≠ [] ∧ (∀ part ∈ r, isName part = true) ∧
      t.get? r.dropLast = some .directory ∧ (e = .directory ∨ t.get? r ≠ some .directory) := by
  simp [admits, and_assoc]

theorem named_put {t : FileTree} {r : Route} {e : Entry} (h : t.admits r e = true) :
    ∀ x ∈ Assoc.put r e t.entries, x.1 ≠ [] ∧ ∀ part ∈ x.1, isName part = true := by
  obtain ⟨hne, hnames, _⟩ := admits_iff.1 h
  intro x hx
  rcases Assoc.mem_put hx with rfl | hx
  · exact ⟨hne, hnames⟩
  · exact t.named x hx

/-- A directory is still one when `put` has put something anywhere. -/
theorem find?_put_of_directory {t : FileTree} {r s : Route} {e : Entry} (h : t.admits r e = true)
    (hs : find? t.entries s = some .directory) :
    find? (Assoc.put r e t.entries) s = some .directory := by
  obtain ⟨hne, _, _, hplace⟩ := admits_iff.1 h
  rw [find?_put s e hne]
  split
  · rename_i hsr
    rw [hplace.resolve_right fun hnot => hnot (hsr ▸ hs)]
  · exact hs

theorem rooted_put {t : FileTree} {r : Route} {e : Entry} (h : t.admits r e = true) :
    ∀ x ∈ Assoc.put r e t.entries,
      find? (Assoc.put r e t.entries) x.1.dropLast = some .directory := by
  intro x hx
  refine find?_put_of_directory h ?_
  rcases Assoc.mem_put hx with rfl | hx
  · exact (admits_iff.1 h).2.2.1
  · exact t.rooted x hx

/-- Puts an entry at the end of a route, in place of what is there. A tree that does not take it
    (`admits`) stays as it is. -/
def put (t : FileTree) (r : Route) (e : Entry) : FileTree :=
  if h : t.admits r e = true then
    ⟨Assoc.put r e t.entries, Assoc.nodup_keys_put r e t.distinct, named_put h, rooted_put h⟩
  else t

theorem put_of_not_admits {t : FileTree} {r : Route} {e : Entry} (h : t.admits r e = false) :
    t.put r e = t := dif_neg (by simp [h])

/-- What `put` has put is found at its route, and nothing else changes. -/
theorem get?_put {t : FileTree} {r : Route} {e : Entry} (s : Route) (h : t.admits r e = true) :
    (t.put r e).get? s = if s = r then some e else t.get? s := by
  rw [put, dif_pos h]
  exact find?_put s e (admits_iff.1 h).1

/-! ## Building a tree -/

/-- Makes the directories along a route that are missing; `done` leads to where the route starts. -/
def makeDirectories (t : FileTree) (done : Route) : Route → FileTree
  | [] => t
  | part :: rest =>
    let here := done ++ [part]
    let t := match t.get? here with
      | some _ => t
      | none => t.put here .directory
    makeDirectories t here rest

/-- Adds a directory at the route `r` and those that lead to it. -/
def addDirectory (t : FileTree) (r : Route) : FileTree := t.makeDirectories [] r

/-- Adds a file at the route `r` and, by `addDirectory`, the directories that lead to it. -/
def addFile (t : FileTree) (r : Route) (content : Bytes) : FileTree :=
  (t.addDirectory r.dropLast).put r (.file content)

/-! ## Following a path -/

/-- Why `follow` leads nowhere, or there is nothing to open where it leads. -/
inductive Obstacle where
  | notFound
  | notDirectory
  | isDirectory
  /-- A part is longer than `nameLimit`, or the whole path longer than `pathLimit`. -/
  | tooLong
  /-- The path holds a NUL character, so that the system cannot be asked for it. -/
  | nul
deriving Repr, DecidableEq

/-- One part further: a dot stays, two dots go up. -/
def stepFrom (r : Route) (part : Text) : Route :=
  if part = ['.'] then r else if part = ['.', '.'] then r.dropLast else r ++ [part]

/-- Follows the parts of a path by `stepFrom`. Whatever has a part after it must be a directory, and
    no part may be too long; the end of the route need not exist. -/
def follow (t : FileTree) (r : Route) : List Text → Except Obstacle Route
  | [] => .ok r
  | part :: rest =>
    match t.get? r with
    | none => .error .notFound
    | some (.file _) => .error .notDirectory
    | some .directory =>
      if nameLimit < byteLength part then .error .tooLong else t.follow (stepFrom r part) rest

end FileTree
end Seashell
