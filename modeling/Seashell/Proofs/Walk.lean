import Mathlib.Data.List.Nodup
import Mathlib.Data.List.Sort
import Seashell.Proofs.Location

set_option autoImplicit false

/-! # What a walk finds

`Workspace.walk` goes through a directory step by step. What it finds can be said at once: it is the
files below the directory that are selected (`Selection.routeMatches`), seen from there and in the
order of routes (`Selection.routeLe`), without those in a directory whose path is too long to be
opened. `Workspace.listed` takes all these files from the tree by a filter and sorts them, and
`Workspace.walk_eq_listed` shows that the walk finds just these, in their order.

The proof has two sides. On the side of the tree, `Workspace.selectedRoutes_eq_walked` takes the
sorted files of a directory apart into its own and those of its subdirectories, as the walk does:
both lists are ascending and have the same members. On the side of texts,
`Workspace.directory?_textIn` says that the text by which the walk opens a subdirectory leads there,
unless it is too long. `Workspace.listed_eq` puts the two together, and the induction is on how much
longer the text of a path may get.

`Workspace.listFiles_is_walk` is what a caller of `Workspace.listFiles` has of it. -/

namespace Seashell

open Text

/-! ## The order of routes -/

namespace Selection

/-- The way from a directory down to a file goes through no excluded directory, and the name of the
    file ends with one of the extensions. -/
def routeMatches (wanted : List Text) (route : List Text) : Bool :=
  !route.isEmpty && route.dropLast.all (!excluded.contains ·)
    && nameMatches wanted (route.getLast?.getD [])

/-- The order of files below a directory: the files of a directory come before what is in its
    subdirectories, and names ascend. -/
def routeLe : List Text → List Text → Bool
  | [], _ => true
  | _ :: _, [] => false
  | [a], [b] => decide (¬ b < a)
  | [_], _ :: _ :: _ => true
  | _ :: _ :: _, [_] => false
  | a :: as, b :: bs => if a = b then routeLe as bs else decide (a < b)

/-- The names of a route with marks, by which a file comes before all directories: `0` for a file,
    `1` for a directory. -/
def rank : List Text → List Text
  | [] => []
  | [name] => [('0' :: name)]
  | name :: rest => ('1' :: name) :: rank rest

theorem rank_below (name : Text) {rest : List Text} (h : rest ≠ []) :
    rank (name :: rest) = ('1' :: name) :: rank rest := by
  obtain ⟨next, more, rfl⟩ := List.exists_cons_of_ne_nil h
  rfl

theorem rank_file_lt_file {a b : Text} : rank [a] < rank [b] ↔ a < b := by
  simp [rank, List.cons_lt_cons_iff]

theorem rank_file_lt_below (a b : Text) {s : List Text} (hs : s ≠ []) :
    rank [a] < rank (b :: s) := by
  rw [rank_below b hs, rank, List.cons_lt_cons_iff, List.cons_lt_cons_iff]
  exact .inl (.inl (by decide))

theorem rank_below_lt_below {a b : Text} {r s : List Text} (hr : r ≠ []) (hs : s ≠ []) :
    rank (a :: r) < rank (b :: s) ↔ a < b ∨ a = b ∧ rank r < rank s := by
  rw [rank_below a hr, rank_below b hs]
  simp [List.cons_lt_cons_iff]

/-- `routeLe` is the order of the marked names, by `rank`. -/
theorem routeLe_iff {a b : List Text} : routeLe a b = true ↔ ¬rank b < rank a := by
  induction a generalizing b with
  | nil => simp [routeLe, rank]
  | cons x xs ih =>
    cases b with
    | nil => cases xs <;> simp [routeLe, rank]
    | cons y ys =>
      -- a file or what is below a directory, on either side
      rcases xs with _ | ⟨x', xs⟩
      · rcases ys with _ | ⟨y', ys⟩
        · rw [rank_file_lt_file]
          exact decide_eq_true_iff
        · have hlt := rank_file_lt_below x y (List.cons_ne_nil y' ys)
          exact iff_of_true rfl (List.lt_asymm hlt)
      · rcases ys with _ | ⟨y', ys⟩
        · have hlt := rank_file_lt_below y x (List.cons_ne_nil x' xs)
          exact iff_of_false (by simp [routeLe]) (not_not_intro hlt)
        · have hle : routeLe (x :: x' :: xs) (y :: y' :: ys) =
              if x = y then routeLe (x' :: xs) (y' :: ys) else decide (x < y) := rfl
          rw [rank_below_lt_below (by simp) (by simp), hle]
          by_cases hxy : x = y
          · rw [if_pos hxy, ih, hxy, or_iff_right (List.lt_irrefl y), and_iff_right rfl]
          · rw [if_neg hxy, decide_eq_true_eq]
            constructor
            · rintro hlt (hgt | ⟨heq, -⟩)
              · exact List.lt_asymm hlt hgt
              · exact hxy heq.symm
            · intro hnot
              exact Std.lt_of_le_of_ne (Std.not_lt.1 fun hgt => hnot (.inl hgt)) hxy

theorem rank_injective {a b : List Text} (h : rank a = rank b) : a = b := by
  induction a generalizing b with
  | nil =>
    rcases b with _ | ⟨y, _ | ⟨y', ys⟩⟩
    · rfl
    · cases h
    · cases h
  | cons x xs ih =>
    rcases xs with _ | ⟨x', xs⟩ <;> rcases b with _ | ⟨y, _ | ⟨y', ys⟩⟩
    all_goals simp [rank] at h
    · rw [h]
    · rw [h.1, ih (by simpa [rank] using h.2)]

/-- The order of routes without equal ones. -/
def routeLt (a b : List Text) : Prop := rank a < rank b

instance : Std.Irrefl routeLt := ⟨fun a => List.lt_irrefl (rank a)⟩

instance : Std.Antisymm routeLt := ⟨fun _ _ hab hba => absurd hba (List.lt_asymm hab)⟩

theorem routeLe_trans (a b c : List Text) (hab : routeLe a b = true) (hbc : routeLe b c = true) :
    routeLe a c = true := by
  rw [routeLe_iff] at hab hbc ⊢
  exact List.not_lt.2 (List.le_trans (List.not_lt.1 hab) (List.not_lt.1 hbc))

theorem routeLe_total (a b : List Text) : (routeLe a b || routeLe b a) = true := by
  rw [Bool.or_eq_true, routeLe_iff, routeLe_iff]
  rcases List.le_total (rank a) (rank b) with hle | hle
  · exact .inl (List.not_lt.2 hle)
  · exact .inr (List.not_lt.2 hle)

theorem routeLt_of_routeLe {a b : List Text} (h : routeLe a b = true) (hne : a ≠ b) :
    routeLt a b :=
  Std.lt_of_le_of_ne (Std.not_lt.1 (routeLe_iff.1 h)) fun heq => hne (rank_injective heq)

/-! ## What is selected -/

theorem nameMatches_iff {wanted : List Text} {name : Text} :
    nameMatches wanted name = true ↔ ∃ e ∈ wanted, e <:+ lower name := by
  simp [nameMatches, endsWith, List.isSuffixOf_iff_suffix]

theorem routeMatches_concat {wanted parents : List Text} {name : Text} :
    routeMatches wanted (parents ++ [name]) = true ↔
      (∀ part ∈ parents, part ∉ excluded) ∧ nameMatches wanted name = true := by
  simp [routeMatches]

theorem routeMatches_file (wanted : List Text) (name : Text) :
    routeMatches wanted [name] = nameMatches wanted name := by
  simp [routeMatches]

theorem routeMatches_below {wanted rest : List Text} (name : Text) (h : rest ≠ []) :
    routeMatches wanted (name :: rest) = (!excluded.contains name && routeMatches wanted rest) := by
  obtain ⟨next, more, rfl⟩ := List.exists_cons_of_ne_nil h
  simp [routeMatches, Bool.and_assoc]

/-- By `normalizeExtensions` an extension is compared without blanks around it, in lower case and
    with a dot in front. -/
theorem mem_normalizeExtensions {extensions : List Text} {e : Text} :
    e ∈ normalizeExtensions extensions ↔
      ∃ x ∈ extensions, lower (trim x) ≠ [] ∧
        e = if (lower (trim x)).head? = some '.' then lower (trim x) else '.' :: lower (trim x) := by
  rw [normalizeExtensions, List.mem_filterMap]
  refine exists_congr fun x => and_congr_right fun _ => ?_
  unfold normalize?
  split
  · rename_i hnil
    simp [hnil]
  · rename_i rest hdot
    simp [hdot, eq_comm]
  · rename_i hnil hdot
    have hhead : (lower (trim x)).head? ≠ some '.' := by
      intro hhead
      obtain ⟨rest, hrest⟩ := List.head?_eq_some_iff.1 hhead
      exact hdot rest hrest
    rw [if_neg hhead, Option.some.injEq, and_iff_right hnil]
    exact eq_comm

end Selection

/-! ## Names in a directory -/

theorem Entry.isDirectory_iff {e : Entry} : e.isDirectory = true ↔ e = .directory := by
  cases e <;> simp [isDirectory]

theorem Entry.not_isDirectory_iff {e : Entry} :
    (!e.isDirectory) = true ↔ ∃ content, e = .file content := by
  cases e <;> simp [isDirectory]

namespace FileTree

variable {t : FileTree} {directory : Route} {sort : Entry → Bool} {name : Text}

theorem nameIn?_eq_some {e : Route × Entry} :
    nameIn? directory sort e = some name ↔ e.1 = directory ++ [name] ∧ sort e.2 = true := by
  rw [nameIn?, Option.ite_none_right_eq_some]
  constructor
  · rintro ⟨⟨rfl, hsort⟩, hlast⟩
    obtain ⟨lead, hlead⟩ := List.getLast?_eq_some_iff.1 hlast
    exact ⟨by rw [hlead, List.dropLast_concat], hsort⟩
  · rintro ⟨heq, hsort⟩
    rw [heq]
    exact ⟨⟨List.dropLast_concat, hsort⟩, List.getLast?_concat⟩

theorem mem_namesIn :
    name ∈ t.namesIn directory sort ↔
      ∃ e, t.get? (directory ++ [name]) = some e ∧ sort e = true := by
  have hne : directory ++ [name] ≠ [] := by simp
  rw [namesIn, List.mem_filterMap]
  constructor
  · rintro ⟨⟨r, e⟩, hmem, hname⟩
    obtain ⟨rfl, hsort⟩ := nameIn?_eq_some.1 hname
    exact ⟨e, (get?_eq_some_iff_mem hne).2 hmem, hsort⟩
  · rintro ⟨e, hget, hsort⟩
    exact ⟨_, (get?_eq_some_iff_mem hne).1 hget, nameIn?_eq_some.2 ⟨rfl, hsort⟩⟩

theorem nodup_namesIn : (t.namesIn directory sort).Nodup := by
  rw [namesIn, List.Nodup, List.pairwise_filterMap]
  refine (List.pairwise_map.1 t.distinct).imp ?_
  intro e e' hne name hname name' hname' heq
  apply hne
  rw [(nameIn?_eq_some.1 hname).1, (nameIn?_eq_some.1 hname').1, heq]

end FileTree

namespace Workspace

/-! ## Selected files -/

/-- The route as seen from a directory, for a file below it. -/
def fileBelow? (directory : Route) : Route × Entry → Option Route
  | (r, .file _) => directory.isPrefixOf? r
  | (_, .directory) => none

/-- The routes of the selected files, seen from a directory, in order. -/
def selectedRoutes (w : Workspace) (directory : Route) (wanted : List Text) : List Route :=
  ((w.tree.entries.filterMap (fileBelow? directory)).filter (Selection.routeMatches wanted)).mergeSort
    Selection.routeLe

variable {w : Workspace} {root : Text} {directory below : Route} {wanted extensions : List Text}
  {name : Text}

theorem fileBelow?_eq_some {e : Route × Entry} :
    fileBelow? directory e = some below ↔ ∃ content, e = (directory ++ below, .file content) := by
  obtain ⟨r, e⟩ := e
  cases e with
  | directory => simp [fileBelow?]
  | file content =>
    simp only [fileBelow?, List.isPrefixOf?_eq_some_iff_append_eq, Prod.mk.injEq, Entry.file.injEq]
    exact ⟨fun h => ⟨content, h.symm, rfl⟩, fun ⟨_, h, _⟩ => h.symm⟩

theorem mem_selectedRoutes :
    below ∈ w.selectedRoutes directory wanted ↔
      (∃ content, w.tree.get? (directory ++ below) = some (.file content)) ∧
        Selection.routeMatches wanted below = true := by
  rw [selectedRoutes, (List.mergeSort_perm _ _).mem_iff, List.mem_filter, List.mem_filterMap]
  refine and_congr_left fun hmatches => ?_
  have hne : directory ++ below ≠ [] := by
    intro hnil
    rw [(List.append_eq_nil_iff.1 hnil).2] at hmatches
    cases hmatches
  simp only [FileTree.get?_eq_some_iff_mem hne]
  constructor
  · rintro ⟨e, he, hsome⟩
    obtain ⟨content, rfl⟩ := fileBelow?_eq_some.1 hsome
    exact ⟨content, he⟩
  · rintro ⟨content, he⟩
    exact ⟨_, he, fileBelow?_eq_some.2 ⟨content, rfl⟩⟩

theorem ne_nil_of_mem_selectedRoutes (h : below ∈ w.selectedRoutes directory wanted) :
    below ≠ [] := by
  rintro rfl
  simp [mem_selectedRoutes, Selection.routeMatches] at h

/-- Every selected file is in `selectedRoutes` once. -/
theorem nodup_selectedRoutes : (w.selectedRoutes directory wanted).Nodup := by
  refine ((List.mergeSort_perm _ _).nodup_iff).2 (List.Nodup.filter _ ?_)
  rw [List.Nodup, List.pairwise_filterMap]
  refine (List.pairwise_map.1 w.tree.distinct).imp ?_
  intro e e' hne below hbelow below' hbelow' he
  obtain ⟨content, rfl⟩ := fileBelow?_eq_some.1 hbelow
  obtain ⟨content', rfl⟩ := fileBelow?_eq_some.1 hbelow'
  exact hne (congrArg (directory ++ ·) he)

/-! ## One directory after the other -/

theorem mem_filesIn :
    name ∈ w.filesIn directory wanted ↔
      (∃ content, w.tree.get? (directory ++ [name]) = some (.file content)) ∧
        Selection.nameMatches wanted name = true := by
  rw [filesIn, List.mem_filter, mem_sort, FileTree.mem_namesIn]
  refine and_congr_left fun _ => ⟨?_, ?_⟩
  · rintro ⟨e, hget, hfile⟩
    obtain ⟨content, rfl⟩ := Entry.not_isDirectory_iff.1 hfile
    exact ⟨content, hget⟩
  · rintro ⟨content, hget⟩
    exact ⟨_, hget, rfl⟩

theorem mem_directoriesIn :
    name ∈ w.directoriesIn directory ↔
      w.tree.get? (directory ++ [name]) = some .directory ∧ name ∉ Selection.excluded := by
  rw [directoriesIn, mem_sort, List.mem_filter, FileTree.mem_namesIn]
  simp [Entry.isDirectory_iff]

theorem pairwise_filesIn : (w.filesIn directory wanted).Pairwise (· < ·) :=
  (pairwise_sort FileTree.nodup_namesIn).filter _

theorem pairwise_directoriesIn : (w.directoriesIn directory).Pairwise (· < ·) :=
  pairwise_sort (FileTree.nodup_namesIn.filter _)

theorem pairwise_selectedRoutes : (w.selectedRoutes directory wanted).Pairwise Selection.routeLt := by
  have hsorted : (w.selectedRoutes directory wanted).Pairwise fun a b =>
      Selection.routeLe a b = true :=
    List.pairwise_mergeSort Selection.routeLe_trans Selection.routeLe_total _
  exact (hsorted.and nodup_selectedRoutes).imp fun hab => Selection.routeLt_of_routeLe hab.1 hab.2

/-- What a walk finds below a directory, seen from there, if each of its subdirectories is
    listed. -/
def walked (w : Workspace) (directory : Route) (wanted : List Text) : List Route :=
  (w.filesIn directory wanted).map ([·]) ++ (w.directoriesIn directory).flatMap fun name =>
    (w.selectedRoutes (directory ++ [name]) wanted).map (name :: ·)

theorem pairwise_walked : (w.walked directory wanted).Pairwise Selection.routeLt := by
  refine List.pairwise_append.2 ⟨?_, List.pairwise_flatMap.2 ⟨?_, ?_⟩, ?_⟩
  · rw [List.pairwise_map]
    exact pairwise_filesIn.imp Selection.rank_file_lt_file.2
  · intro name _
    rw [List.pairwise_map]
    refine pairwise_selectedRoutes.imp_of_mem ?_
    intro r s hr hs hlt
    have hne := ne_nil_of_mem_selectedRoutes hr
    have hne' := ne_nil_of_mem_selectedRoutes hs
    exact (Selection.rank_below_lt_below hne hne').2 (.inr ⟨rfl, hlt⟩)
  · refine pairwise_directoriesIn.imp ?_
    intro a b hlt r hr s hs
    obtain ⟨r', hr', rfl⟩ := List.mem_map.1 hr
    obtain ⟨s', hs', rfl⟩ := List.mem_map.1 hs
    have hne := ne_nil_of_mem_selectedRoutes hr'
    have hne' := ne_nil_of_mem_selectedRoutes hs'
    exact (Selection.rank_below_lt_below hne hne').2 (.inl hlt)
  · intro r hr s hs
    obtain ⟨a, _, rfl⟩ := List.mem_map.1 hr
    obtain ⟨b, _, hs'⟩ := List.mem_flatMap.1 hs
    obtain ⟨rest, hrest, rfl⟩ := List.mem_map.1 hs'
    exact Selection.rank_file_lt_below a b (ne_nil_of_mem_selectedRoutes hrest)

theorem mem_walked :
    below ∈ w.walked directory wanted ↔ below ∈ w.selectedRoutes directory wanted := by
  rw [walked, List.mem_append, List.mem_map, List.mem_flatMap, mem_selectedRoutes]
  constructor
  · rintro (⟨name, hname, rfl⟩ | ⟨name, hname, hbelow⟩)
    · obtain ⟨hfile, hmatches⟩ := mem_filesIn.1 hname
      exact ⟨hfile, by rwa [Selection.routeMatches_file]⟩
    · obtain ⟨rest, hrest, rfl⟩ := List.mem_map.1 hbelow
      obtain ⟨_, hexcluded⟩ := mem_directoriesIn.1 hname
      have hne := ne_nil_of_mem_selectedRoutes hrest
      obtain ⟨hfile, hmatches⟩ := mem_selectedRoutes.1 hrest
      rw [List.append_assoc] at hfile
      refine ⟨hfile, ?_⟩
      rw [Selection.routeMatches_below name hne, hmatches]
      simpa using hexcluded
  · rintro ⟨⟨content, hfile⟩, hmatches⟩
    cases below with
    | nil => cases hmatches
    | cons name rest =>
      by_cases hne : rest = []
      · subst hne
        rw [Selection.routeMatches_file] at hmatches
        exact .inl ⟨name, mem_filesIn.2 ⟨⟨content, hfile⟩, hmatches⟩, rfl⟩
      · rw [Selection.routeMatches_below name hne, Bool.and_eq_true] at hmatches
        have hsplit : directory ++ name :: rest = directory ++ [name] ++ rest := by simp
        rw [hsplit] at hfile
        have hdirectory := FileTree.get?_above hne hfile
        refine .inr ⟨name, mem_directoriesIn.2 ⟨hdirectory, by simpa using hmatches.1⟩, ?_⟩
        exact List.mem_map.2 ⟨rest, mem_selectedRoutes.2 ⟨⟨content, hfile⟩, hmatches.2⟩, rfl⟩

/-- **What is selected and sorted is what a walk finds**, `walked`, in its order. -/
theorem selectedRoutes_eq_walked :
    w.selectedRoutes directory wanted = w.walked directory wanted :=
  List.Pairwise.eq_of_mem_iff pairwise_selectedRoutes pairwise_walked fun _ => mem_walked.symm

/-! ## Paths of directories below -/

/-- The text by which a directory below another one is opened, name by name. -/
def textBelow (root : Text) : List Text → Text
  | [] => root
  | name :: rest => textBelow (textIn root name) rest

/-- The directory below another one is entered. One whose path is too long is passed over. -/
def isEntered (root : Text) (names : List Text) : Bool :=
  decide (FileTree.byteLength (textBelow root names) ≤ FileTree.pathLimit)

/-- A text that names something in a directory, `textIn`, is that of the directory up to a slash,
    and the name. -/
theorem exists_textIn_eq (root name : Text) :
    ∃ lead, textIn root name = lead ++ '/' :: name ∧
      (endsWith root ['/'] = false ∧ root = lead ∨
        endsWith root ['/'] = true ∧ root = lead ++ ['/']) := by
  rw [textIn]
  by_cases hslash : endsWith root ['/'] = true
  · obtain ⟨lead, rfl⟩ := List.isSuffixOf_iff_suffix.1 hslash
    rw [if_pos hslash]
    exact ⟨lead, by simp, .inr ⟨hslash, rfl⟩⟩
  · rw [if_neg hslash]
    exact ⟨root, rfl, .inl ⟨by simpa using hslash, rfl⟩⟩

theorem byteLength_le_textBelow (root : Text) (names : List Text) :
    FileTree.byteLength root ≤ FileTree.byteLength (textBelow root names) := by
  induction names generalizing root with
  | nil => exact Nat.le_refl _
  | cons name rest ih =>
    refine Nat.le_trans ?_ (ih _)
    rw [textIn, byteLength_append]
    exact Nat.le_add_right _ _

end Workspace

/-- Where a text starts, by `startOf`, is seen from its first characters, unless there are slashes
    only. -/
theorem Path.startOf_append {root rest : Text} (hne : root ≠ [])
    (h : endsWith root ['/'] = false ∨ rest.head? ≠ some '/') :
    startOf (root ++ rest) = startOf root := by
  rcases root with _ | ⟨a, _ | ⟨b, _ | ⟨c, more⟩⟩⟩
  · exact absurd rfl hne
  · rcases rest with _ | ⟨x, _ | ⟨y, rest⟩⟩ <;> by_cases ha : a = '/' <;>
      simp_all [startOf, endsWith, List.isSuffixOf]
  · rcases rest with _ | ⟨x, rest⟩ <;> by_cases ha : a = '/' <;> by_cases hb : b = '/' <;>
      simp_all [startOf, endsWith, List.isSuffixOf]
  · by_cases ha : a = '/' <;> by_cases hb : b = '/' <;> by_cases hc : c = '/' <;>
      simp [startOf, ha, hb, hc]

namespace Workspace

variable {w : Workspace} {root : Text} {directory below : Route} {wanted extensions : List Text}
  {name : Text}

theorem startOf_textIn (hne : root ≠ []) (hpart : Path.isPart name = true) :
    Path.startOf (textIn root name) = Path.startOf root := by
  rw [textIn]
  refine Path.startOf_append hne ?_
  by_cases hend : endsWith root ['/'] = true
  · rw [if_pos hend]
    exact .inr (Path.head?_of_isPart hpart)
  · exact .inl (by simpa using hend)

/-- The path of something in a directory, by `textIn`. -/
theorem ofText_textIn (hne : root ≠ []) (hname : FileTree.isName name = true) :
    Path.ofText (textIn root name) =
      ⟨(Path.ofText root).start, (Path.ofText root).parts ++ [name]⟩ := by
  have hpart := FileTree.isPart_of_isName hname
  obtain ⟨lead, htext, hroot⟩ := exists_textIn_eq root name
  have hlead : Path.partsOf root = Path.partsOf lead := by
    rcases hroot with ⟨-, rfl⟩ | ⟨-, rfl⟩
    · rfl
    · rw [Path.partsOf, List.splitOn_append_cons_self, List.filter_append]
      simp [Path.isStill, Path.partsOf]
  have hparts : Path.partsOf (textIn root name) = Path.partsOf root ++ [name] := by
    rw [htext, hlead, Path.partsOf, List.splitOn_append_cons_self, List.filter_append]
    exact congrArg (_ ++ ·) (Path.partsOf_of_isPart hpart (FileTree.isName_iff.1 hname).2.1)
  rw [Path.ofText, startOf_textIn hne hpart, hparts]
  rfl

theorem child_ofText (hname : FileTree.isName name = true) :
    (Path.ofText root).child name =
      ⟨(Path.ofText root).start, (Path.ofText root).parts ++ [name]⟩ := by
  have hpart := FileTree.isPart_of_isName hname
  have hparts := Path.partsOf_of_isPart hpart (FileTree.isName_iff.1 hname).2.1
  have hstart : Path.ofText name = ⟨.here, [name]⟩ := by
    have hread := Path.ofText_start_append .here (Path.head?_of_isPart hpart)
    rwa [hparts] at hread
  rw [Path.child, hstart]
  rfl

/-- The parts that lead to a directory lead on to what is in it by `textIn`. -/
theorem follow_textIn {start : Route} (hname : FileTree.isName name = true)
    (hget : w.tree.get? directory = some .directory)
    (hfollow : w.tree.follow start (stepsOf root) = .ok directory) :
    w.tree.follow start (stepsOf (textIn root name)) = .ok (directory ++ [name]) := by
  obtain ⟨hpart, _, hshort⟩ := FileTree.isFileName_iff.1 (FileTree.isName_iff.1 hname).1
  obtain ⟨hne, hslash⟩ := Path.isPart_iff.1 hpart
  obtain ⟨lead, htext, hroot⟩ := exists_textIn_eq root name
  have hend : endsWith (lead ++ '/' :: name) ['/'] = false := by
    refine Bool.eq_false_iff.2 fun hsuffix => hslash ?_
    have hlast : ['/'] <:+ name := List.suffix_of_suffix_length_le
      (List.isSuffixOf_iff_suffix.1 hsuffix) ⟨lead ++ ['/'], by simp⟩ (List.length_pos_iff.2 hne)
    exact hlast.subset (by simp)
  have hsteps : stepsOf (textIn root name) =
      (List.splitOn '/' lead).filter (!·.isEmpty) ++ [name] := by
    rw [htext, stepsOf, hend, List.splitOn_append_cons_self, List.filter_append,
      List.splitOn_eq_singleton hslash]
    simp [hne]
  have hlead : w.tree.follow start ((List.splitOn '/' lead).filter (!·.isEmpty)) =
      .ok directory := by
    rcases hroot with ⟨hslash, rfl⟩ | ⟨hslash, rfl⟩
    · rwa [stepsOf, hslash, if_neg (by simp), List.append_nil] at hfollow
    · -- a slash at the end asks for a directory, and stays there
      rw [stepsOf, hslash, if_pos rfl, List.splitOn_append_cons_self, List.filter_append] at hfollow
      obtain ⟨middle, hmiddle, hstay⟩ := FileTree.follow_append_eq_ok.1 hfollow
      obtain ⟨-, -, hstep⟩ := FileTree.follow_singleton_eq_ok.1 hstay
      rw [← hstep, FileTree.stepFrom, if_pos rfl]
      simpa using hmiddle
  rw [hsteps]
  refine FileTree.follow_append_eq_ok.2 ⟨directory, hlead, FileTree.follow_singleton_eq_ok.2
    ⟨hget, hshort, FileTree.stepFrom_of_isName directory hname⟩⟩

theorem directory?_eq_some :
    w.directory? root = some directory ↔
      w.locate root = .ok directory ∧ w.tree.get? directory = some .directory := by
  unfold directory?
  cases w.locate root with
  | error o => simp
  | ok r =>
    simp only [Option.ite_none_right_eq_some, Option.some.injEq, Except.ok.injEq]
    constructor
    · rintro ⟨hget, rfl⟩
      exact ⟨rfl, hget⟩
    · rintro ⟨rfl, hget⟩
      exact ⟨hget, rfl⟩

/-- A directory in one that a text stands for is found by `directory?` of the text with its name,
    unless that is too long. -/
theorem directory?_textIn (hroot : w.directory? root = some directory)
    (hname : w.tree.get? (directory ++ [name]) = some .directory) :
    w.directory? (textIn root name) =
      if FileTree.byteLength (textIn root name) ≤ FileTree.pathLimit then some (directory ++ [name])
      else none := by
  obtain ⟨hlocate, hget⟩ := directory?_eq_some.1 hroot
  obtain ⟨hnul, -, hne, hfollow⟩ := locate_eq_ok.1 hlocate
  have hisName := FileTree.isName_of_get? hname name (by simp)
  obtain ⟨hpart, hclean, -⟩ := FileTree.isFileName_iff.1 (FileTree.isName_iff.1 hisName).1
  split
  · rename_i hlong
    refine directory?_eq_some.2 ⟨locate_eq_ok.2 ⟨?_, hlong, ?_, ?_⟩, hname⟩
    · rw [textIn]
      split <;> simp [hnul, hclean]
    · rw [textIn]
      simp [hne]
    · rw [startOf_textIn hne hpart]
      exact follow_textIn hisName hget hfollow
  · rename_i hlong
    cases hnone : w.directory? (textIn root name) with
    | none => rfl
    | some r => exact absurd (byteLength_le_of_directory? hnone) hlong

/-! ## Listings -/

/-- The selected files below a directory by a filter and in order, with the route to the directory
    and the text that stands for it. -/
def listed (w : Workspace) (wanted : List Text) (root : Text) (directory : Route) : List Path :=
  ((w.selectedRoutes directory wanted).filter fun below => isEntered root below.dropLast).map
    fun below => ⟨(Path.ofText root).start, (Path.ofText root).parts ++ below⟩

theorem nodup_listed : (w.listed wanted root directory).Nodup := by
  refine List.Nodup.map ?_ (nodup_selectedRoutes.filter _)
  intro below below' heq
  exact List.append_cancel_left (congrArg Path.parts heq)

/-- What is `listed` are the files whose names end with an extension, and to which the way leads
    through no excluded directory and through none with too long a path. -/
theorem mem_listed {p : Path} :
    p ∈ w.listed wanted root directory ↔ ∃ parents name content,
      w.tree.get? (directory ++ parents ++ [name]) = some (.file content) ∧
        (∀ part ∈ parents, part ∉ Selection.excluded) ∧ (∃ e ∈ wanted, e <:+ lower name) ∧
        FileTree.byteLength (textBelow root parents) ≤ FileTree.pathLimit ∧
        p = ⟨(Path.ofText root).start, (Path.ofText root).parts ++ parents ++ [name]⟩ := by
  rw [listed, List.mem_map]
  constructor
  · rintro ⟨below, hbelow, rfl⟩
    obtain ⟨hselected, hentered⟩ := List.mem_filter.1 hbelow
    have hne := ne_nil_of_mem_selectedRoutes hselected
    obtain ⟨parents, name, rfl⟩ : ∃ parents name, below = parents ++ [name] :=
      ⟨_, _, (List.dropLast_concat_getLast hne).symm⟩
    obtain ⟨⟨content, hget⟩, hmatches⟩ := mem_selectedRoutes.1 hselected
    obtain ⟨hparents, hname⟩ := Selection.routeMatches_concat.1 hmatches
    rw [List.dropLast_concat, isEntered, decide_eq_true_eq] at hentered
    rw [← List.append_assoc] at hget
    exact ⟨parents, name, content, hget, hparents, Selection.nameMatches_iff.1 hname, hentered,
      by rw [List.append_assoc]⟩
  · rintro ⟨parents, name, content, hget, hparents, hname, hentered, rfl⟩
    rw [List.append_assoc] at hget
    refine ⟨parents ++ [name], List.mem_filter.2 ⟨?_, ?_⟩, by rw [List.append_assoc]⟩
    · exact mem_selectedRoutes.2 ⟨⟨content, hget⟩, Selection.routeMatches_concat.2
        ⟨hparents, Selection.nameMatches_iff.2 hname⟩⟩
    · rwa [List.dropLast_concat, isEntered, decide_eq_true_eq]

theorem listed_of_tooLong (hlong : FileTree.pathLimit < FileTree.byteLength root) :
    w.listed wanted root directory = [] := by
  have hentered (names : List Text) : isEntered root names = false := by
    have hle := byteLength_le_textBelow root names
    rw [isEntered, decide_eq_false_iff_not]
    omega
  simp [listed, hentered]

/-- What is `listed` begins with the files of the directory itself, and goes on with those of its
    subdirectories. -/
theorem listed_eq (hroot : w.directory? root = some directory) :
    w.listed wanted root directory =
      (w.filesIn directory wanted).map (Path.ofText root).child ++
        (w.directoriesIn directory).flatMap fun name =>
          w.listed wanted (textIn root name) (directory ++ [name]) := by
  obtain ⟨-, hlong, hne, -⟩ := locate_eq_ok.1 (directory?_eq_some.1 hroot).1
  rw [listed, selectedRoutes_eq_walked, walked, List.filter_append, List.map_append,
    List.filter_flatMap, List.map_flatMap]
  refine congrArg₂ (· ++ ·) ?_ (List.flatMap_congr fun name hname => ?_)
  · rw [List.filter_eq_self.2, List.map_map]
    · refine List.map_congr_left fun name hname => ?_
      obtain ⟨⟨content, hfile⟩, -⟩ := mem_filesIn.1 hname
      exact (child_ofText (FileTree.isName_of_get? hfile name (by simp))).symm
    · intro r hr
      obtain ⟨name, -, rfl⟩ := List.mem_map.1 hr
      simpa [isEntered, textBelow] using hlong
  · obtain ⟨hdirectory, -⟩ := mem_directoriesIn.1 hname
    have hisName := FileTree.isName_of_get? hdirectory name (by simp)
    have hentered : ∀ below ∈ w.selectedRoutes (directory ++ [name]) wanted,
        isEntered root (name :: below).dropLast = isEntered (textIn root name) below.dropLast := by
      intro below hbelow
      rw [List.dropLast_cons_of_ne_nil (ne_nil_of_mem_selectedRoutes hbelow)]
      rfl
    rw [listed, List.filter_map, Function.comp_def, List.map_map, ofText_textIn hne hisName,
      List.filter_congr hentered]
    refine List.map_congr_left fun below _ => ?_
    simp

/-- **A walk finds what a filter selects, in order**: `walk` is `listed`. -/
theorem walk_eq_listed (hroot : w.directory? root = some directory) :
    w.walk wanted root = w.listed wanted root directory := by
  -- a walk goes on to longer texts, and ends with those that are too long
  generalize hroom : FileTree.pathLimit + 1 - FileTree.byteLength root = room
  induction room using Nat.strongRecOn generalizing root directory with
  | ind room ih =>
    rw [walk_of_some wanted hroot, listed_eq hroot]
    refine congrArg (_ ++ ·) (List.flatMap_congr fun name hname => ?_)
    have hbelow := directory?_textIn hroot (mem_directoriesIn.1 hname).1
    split at hbelow
    · exact ih _ (hroom ▸ walk_decreases hroot hname) hbelow rfl
    · rename_i hlong
      rw [walk_of_none wanted hbelow, listed_of_tooLong (Nat.not_le.1 hlong)]

theorem listFiles_eq (hroot : w.directory? root = some directory) :
    w.listFiles root extensions =
      .ok (w.listed (Selection.normalizeExtensions extensions) root directory) := by
  have hnul := (locate_eq_ok.1 (directory?_eq_some.1 hroot).1).1
  rw [listFiles, if_neg (by simpa using hnul), walk_eq_listed hroot]

/-- `listFiles` lists a directory in a listed one by the text with its name. Nothing is listed if
    that is too long. -/
theorem listFiles_textIn (hroot : w.directory? root = some directory)
    (hname : w.tree.get? (directory ++ [name]) = some .directory) :
    w.listFiles (textIn root name) extensions = .ok (w.listed
      (Selection.normalizeExtensions extensions) (textIn root name) (directory ++ [name])) := by
  have hbelow := directory?_textIn hroot hname
  split at hbelow
  · exact listFiles_eq hbelow
  · rename_i hlong
    have hnul := (locate_eq_ok.1 (directory?_eq_some.1 hroot).1).1
    have hisName := FileTree.isName_of_get? hname name (by simp)
    have hclean := (FileTree.isFileName_iff.1 (FileTree.isName_iff.1 hisName).1).2.1
    have htext : '\x00' ∉ textIn root name := by
      rw [textIn]
      split <;> simp [hnul, hclean]
    rw [listFiles, if_neg (by simpa using htext), walk_of_none _ hbelow,
      listed_of_tooLong (Nat.not_le.1 hlong)]

/-- **A listing is a walk.** `listFiles` lists every file at most once, and it lists a file exactly
    if its name, in lower case, ends with one of the extensions, no directory on the way down to it
    is `excluded`, and the path of the directory that it is in is not too long. First come the
    selected files of the directory itself in the order of their names, then what is listed for each
    of its subdirectories in the order of theirs. -/
theorem listFiles_is_walk (w : Workspace) (root : Text) (extensions : List Text) {directory : Route}
    (hroot : w.locate root = .ok directory) (hget : w.tree.get? directory = some .directory) :
    let top := Path.ofText root
    let wanted := Selection.normalizeExtensions extensions
    ∃ paths, w.listFiles root extensions = .ok paths ∧ paths.Nodup ∧
      (∀ p, p ∈ paths ↔ ∃ parents name content,
        w.tree.get? (directory ++ parents ++ [name]) = some (.file content) ∧
          (∀ part ∈ parents, part ∉ Selection.excluded) ∧ (∃ e ∈ wanted, e <:+ lower name) ∧
          FileTree.byteLength (textBelow root parents) ≤ FileTree.pathLimit ∧
          p = ⟨top.start, top.parts ++ parents ++ [name]⟩) ∧
      (∀ e, e ∈ wanted ↔ ∃ x ∈ extensions, lower (trim x) ≠ [] ∧
        e = if (lower (trim x)).head? = some '.' then lower (trim x) else '.' :: lower (trim x)) ∧
      (wanted = [] → paths = []) ∧
      ∃ (files subdirectories : List Text) (listing : Text → List Path),
        (files.Pairwise (· < ·) ∧ ∀ name, name ∈ files ↔
          (∃ content, w.tree.get? (directory ++ [name]) = some (.file content)) ∧
            ∃ e ∈ wanted, e <:+ lower name) ∧
        (subdirectories.Pairwise (· < ·) ∧ ∀ name, name ∈ subdirectories ↔
          w.tree.get? (directory ++ [name]) = some .directory ∧ name ∉ Selection.excluded) ∧
        (∀ name ∈ subdirectories,
          w.listFiles (textBelow root [name]) extensions = .ok (listing name)) ∧
        paths = files.map (fun name => ⟨top.start, top.parts ++ [name]⟩) ++
          subdirectories.flatMap listing := by
  intro top wanted
  have hdirectory := directory?_eq_some.2 ⟨hroot, hget⟩
  refine ⟨w.listed wanted root directory, listFiles_eq hdirectory, nodup_listed,
    fun p => mem_listed, fun e => Selection.mem_normalizeExtensions, ?_,
    w.filesIn directory wanted, w.directoriesIn directory,
    fun name => w.listed wanted (textIn root name) (directory ++ [name]),
    ⟨pairwise_filesIn, fun name => ?_⟩, ⟨pairwise_directoriesIn, fun name => mem_directoriesIn⟩,
    fun name hname => ?_, ?_⟩
  · intro hnone
    refine List.eq_nil_iff_forall_not_mem.2 fun p hp => ?_
    obtain ⟨_, _, _, _, _, ⟨e, he, _⟩, _⟩ := mem_listed.1 hp
    rw [hnone] at he
    cases he
  · rw [mem_filesIn, Selection.nameMatches_iff]
  · exact listFiles_textIn hdirectory (mem_directoriesIn.1 hname).1
  · rw [listed_eq hdirectory]
    refine congrArg (· ++ _) (List.map_congr_left fun name hname => ?_)
    obtain ⟨⟨content, hfile⟩, -⟩ := mem_filesIn.1 hname
    exact child_ofText (FileTree.isName_of_get? hfile name (by simp))

/-- A workspace with files in `out`, whose name is excluded, in a directory below it that is not,
    and in one below it that is. -/
def sourcesInOut : Workspace :=
  ⟨(((FileTree.empty.addFile ["out".toList, "b.TXT".toList] [0x78]).addFile
      ["out".toList, "a.txt".toList] [0x78]).addFile
      ["out".toList, "sub".toList, "c.txt".toList] [0x78]).addFile
      ["out".toList, "target".toList, "d.txt".toList] [0x78], ⟨.root, []⟩⟩

/-- The directory that is listed may be an excluded one; one that is below it is not entered. -/
theorem listFiles_is_walk_sourcesInOut :
    let root : Text := "out"
    let extensions : List Text := [" TXT".toList, []]
    sourcesInOut.locate root = .ok ["out".toList] ∧
      sourcesInOut.tree.get? ["out".toList] = some .directory ∧
      ∃ paths, sourcesInOut.listFiles root extensions = .ok paths ∧ paths.Nodup ∧
        ⟨.here, ["out".toList, "sub".toList, "c.txt".toList]⟩ ∈ paths ∧
        ⟨.here, ["out".toList, "target".toList, "d.txt".toList]⟩ ∉ paths := by
  intro root extensions
  have hroot : sourcesInOut.locate root = .ok ["out".toList] := rfl
  have hget : sourcesInOut.tree.get? ["out".toList] = some .directory := rfl
  obtain ⟨paths, hpaths, hdistinct, hmem, _⟩ :=
    listFiles_is_walk sourcesInOut root extensions hroot hget
  refine ⟨hroot, hget, paths, hpaths, hdistinct, (hmem _).2 ?_, fun hp => ?_⟩
  · exact ⟨["sub".toList], "c.txt", [0x78], by decide, by decide, by decide, by decide,
      by decide⟩
  · obtain ⟨parents, name, content, _, hparents, _, _, heq⟩ := (hmem _).1 hp
    have htop : (Path.ofText root).parts = ["out".toList] := by decide
    have hbelow : parents ++ [name] = ["target".toList] ++ ["d.txt".toList] := by
      have hparts := congrArg Path.parts heq
      rw [htop] at hparts
      simpa using hparts.symm
    obtain ⟨rfl, -⟩ := List.append_inj' hbelow rfl
    exact hparents "target".toList (by simp) (by decide)

/-- A way that enters a directory and leaves it again, many times over. -/
def detours : Path := ⟨.here, (List.replicate 20 [List.replicate 200 'd', "..".toList]).flatten⟩

/-- A workspace with that directory, a file beside it, and a file in another directory. -/
def besideDetours : Workspace :=
  ⟨((FileTree.empty.addDirectory [List.replicate 200 'd']).addFile ["b.txt".toList] [0x78]).addFile
    [List.replicate 20 's', "a.txt".toList] [0x78], ⟨.root, []⟩⟩

/-- A file may be missed that no excluded directory hides and whose name ends as it should: the path
    to the listed directory is one that the system takes, and with the name of a subdirectory it is
    too long. -/
theorem listFiles_misses_below_detours :
    let sub : Text := List.replicate 20 's'
    besideDetours.locate detours.text = .ok [] ∧
      besideDetours.tree.get? [sub, "a.txt".toList] = some (.file [0x78]) ∧
      sub ∉ Selection.excluded ∧
      (∃ e ∈ Selection.normalizeExtensions ["txt".toList], e <:+ lower "a.txt") ∧
      besideDetours.listFiles detours.text ["txt".toList] =
        .ok [⟨.here, detours.parts ++ ["b.txt".toList]⟩] := by
  intro sub
  have hparts : ∀ part ∈ detours.parts, Path.isPart part = true ∧ part ≠ ['.'] := by decide +kernel
  have hpath : Path.ofText detours.text = detours := Path.ofText_text (by decide) hparts
  have hroot : besideDetours.locate detours.text = .ok [] := by
    have hfollow : besideDetours.tree.follow [] detours.parts = .ok [] :=
      eq_ok_of_toOption (by decide +kernel)
    refine (locate_text besideDetours .here (by decide) fun part hp => (hparts part hp).1).trans ?_
    rw [if_neg (by decide +kernel), if_neg (by decide +kernel)]
    exact hfollow
  refine ⟨hroot, by decide +kernel, by decide +kernel, by decide +kernel, ?_⟩
  have hroutes : besideDetours.selectedRoutes [] (Selection.normalizeExtensions ["txt".toList]) =
      [["b.txt".toList], [sub, "a.txt".toList]] :=
    (List.mergeSort_of_pairwise (by decide +kernel)).trans (by decide +kernel)
  have hentered : [["b.txt".toList], [sub, "a.txt".toList]].filter
      (fun below => isEntered detours.text below.dropLast) = [["b.txt".toList]] := by
    decide +kernel
  rw [listFiles_eq (directory?_eq_some.2 ⟨hroot, rfl⟩), listed, hroutes, hpath, hentered]
  rfl

end Workspace
end Seashell
