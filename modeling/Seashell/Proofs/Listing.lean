import Mathlib.Data.List.Nodup
import Seashell.Proofs.Walk

set_option autoImplicit false

/-! # Paths of a listing

`Workspace.listFiles` names the files below a directory by paths that begin as the path of the
directory does. The names of a tree are followed down and never lead out of the directory that they
are in, so that such a path leads, if it leads anywhere, to the file that it was listed for
(`Workspace.eq_of_locate_selected`). A walk lists no file twice, so no two paths of a listing lead
to the same place: they are `Workspace.Apart` (`Workspace.apart_listFiles`). Changing the files of a
listing one after the other rests on this. -/

namespace Seashell

open Text

/-! ## Following names -/

namespace FileTree

theorem follow_cons_eq_ok {t : FileTree} {r s : Route} {part : Text} {rest : List Text} :
    t.follow r (part :: rest) = .ok s ↔
      ∃ middle, t.follow r [part] = .ok middle ∧ t.follow middle rest = .ok s := by
  rw [← follow_append_eq_ok, List.singleton_append]

/-- Names of files are followed down: `follow` appends them. -/
theorem eq_append_of_follow {t : FileTree} {r s : Route} {parts : List Text}
    (hparts : ∀ part ∈ parts, isName part = true) (h : t.follow r parts = .ok s) :
    s = r ++ parts := by
  induction parts generalizing r with
  | nil => simpa [follow] using h.symm
  | cons part rest ih =>
    obtain ⟨hpart, hrest⟩ := List.forall_mem_cons.1 hparts
    obtain ⟨middle, hfirst, hlater⟩ := follow_cons_eq_ok.1 h
    obtain ⟨-, -, hstep⟩ := follow_singleton_eq_ok.1 hfirst
    rw [stepFrom_of_isName r hpart] at hstep
    rw [ih hrest hlater, ← hstep, List.append_assoc]
    rfl

/-- `follow` leads to the same place without the parts that stay in place. -/
theorem follow_filter {t : FileTree} {r s : Route} {parts : List Text}
    (h : t.follow r parts = .ok s) : t.follow r (parts.filter (· != ['.'])) = .ok s := by
  induction parts generalizing r with
  | nil => exact h
  | cons part rest ih =>
    obtain ⟨middle, hfirst, hlater⟩ := follow_cons_eq_ok.1 h
    by_cases hdot : part = ['.']
    · obtain ⟨-, -, hstep⟩ := follow_singleton_eq_ok.1 hfirst
      rw [stepFrom, if_pos hdot] at hstep
      simpa [hdot, hstep] using ih hlater
    · have hfilter : (part :: rest).filter (· != ['.']) = part :: rest.filter (· != ['.']) := by
        simp [hdot]
      rw [hfilter]
      exact follow_cons_eq_ok.2 ⟨middle, hfirst, ih hlater⟩

end FileTree

namespace Workspace

theorem partsOf_eq_filter (path : Text) :
    Path.partsOf path = (stepsOf path).filter (· != ['.']) := by
  have hend :
      ((if endsWith path ['/'] then [['.']] else []) : List Text).filter (· != ['.']) = [] := by
    split <;> rfl
  rw [stepsOf, List.filter_append, hend, List.append_nil, List.filter_filter, Path.partsOf]
  refine List.filter_congr fun part _ => ?_
  simp [Path.isStill, Bool.and_comm, bne]

/-- The parts of the path that a text names, `partsOf`, lead where the text does. -/
theorem follow_of_locate {w : Workspace} {path : Text} {r : Route} (h : w.locate path = .ok r) :
    w.tree.follow (w.origin (Path.startOf path)) (Path.partsOf path) = .ok r := by
  rw [partsOf_eq_filter]
  exact FileTree.follow_filter (locate_eq_ok.1 h).2.2.2

/-! ## Paths of selected files -/

/-- The paths lead to files, and no two of them to the same one, by `locate`. -/
structure Apart (w : Workspace) (paths : List Path) : Prop where
  files : ∀ p ∈ paths, ∀ r, w.locate p.text = .ok r →
    ∃ content, w.tree.get? r = some (.file content)
  distinct : paths.Pairwise fun p q => ∀ r, w.locate p.text = .ok r → w.locate q.text ≠ .ok r

/-- The path of a file of `selectedRoutes` leads to it, if it leads anywhere. -/
theorem eq_of_locate_selected {w : Workspace} {root : Text} {directory below r : Route}
    {wanted : List Text} (hroot : w.locate root = .ok directory)
    (hbelow : below ∈ w.selectedRoutes directory wanted)
    (h : w.locate (Path.text ⟨Path.startOf root, Path.partsOf root ++ below⟩) = .ok r) :
    r = directory ++ below := by
  obtain ⟨⟨content, hget⟩, _⟩ := mem_selectedRoutes.1 hbelow
  have hparts : ∀ part ∈ below, FileTree.isName part = true :=
    fun part hp => FileTree.isName_of_get? hget part (List.mem_append_right _ hp)
  have hne := ne_nil_of_mem_selectedRoutes hbelow
  have hall : ∀ part ∈ Path.partsOf root ++ below, Path.isPart part = true := by
    intro part hp
    rcases List.mem_append.1 hp with hp | hp
    · exact (Path.mem_partsOf hp).1
    · exact FileTree.isPart_of_isName (hparts part hp)
  rw [locate_text w _ (by simp [hne]) hall] at h
  split at h
  · cases h
  · split at h
    · cases h
    · obtain ⟨middle, hfirst, hlater⟩ := FileTree.follow_append_eq_ok.1 h
      have hmiddle : directory = middle :=
        Except.ok.inj ((follow_of_locate hroot).symm.trans hfirst)
      rw [hmiddle]
      exact FileTree.eq_append_of_follow hparts hlater

theorem apart_listed {w : Workspace} {root : Text} {wanted : List Text} {directory : Route}
    (hroot : w.locate root = .ok directory) : w.Apart (w.listed wanted root directory) := by
  constructor
  · intro p hp r hr
    obtain ⟨below, hlisted, rfl⟩ := List.mem_map.1 hp
    have hbelow := List.mem_of_mem_filter hlisted
    obtain ⟨⟨content, hget⟩, _⟩ := mem_selectedRoutes.1 hbelow
    exact ⟨content, eq_of_locate_selected hroot hbelow hr ▸ hget⟩
  · rw [listed, List.pairwise_map]
    refine (nodup_selectedRoutes.filter _).pairwise_of_forall_ne ?_
    intro below hbelow below' hbelow' hne r hr hr'
    have heq := eq_of_locate_selected hroot (List.mem_of_mem_filter hbelow) hr
    have heq' := eq_of_locate_selected hroot (List.mem_of_mem_filter hbelow') hr'
    exact hne (List.append_cancel_left (heq.symm.trans heq'))

/-- What `listFiles` gives is what a walk of a directory finds (`listed`); without a directory that
    is nothing. -/
theorem listFiles_eq_ok {w : Workspace} {root : Text} {extensions : List Text} {paths : List Path}
    (h : w.listFiles root extensions = .ok paths) :
    paths = [] ∨ ∃ directory, w.locate root = .ok directory ∧
      paths = w.listed (Selection.normalizeExtensions extensions) root directory := by
  unfold listFiles at h
  split at h
  · cases h
  · cases h
    cases hroot : w.directory? root with
    | none => exact .inl (walk_of_none _ hroot)
    | some directory =>
      exact .inr ⟨directory, (directory?_eq_some.1 hroot).1, walk_eq_listed hroot⟩

/-- The paths of `listFiles` are apart. -/
theorem apart_listFiles {w : Workspace} {root : Text} {extensions : List Text} {paths : List Path}
    (h : w.listFiles root extensions = .ok paths) : w.Apart paths := by
  rcases listFiles_eq_ok h with rfl | ⟨directory, hroot, rfl⟩
  · exact ⟨by simp, .nil⟩
  · exact apart_listed hroot

end Workspace
end Seashell
