import Seashell.FileTree.Workspace
import Seashell.Proofs.Text

set_option autoImplicit false

/-! # Where paths lead

The text of a path leads through its parts, one directory after the other. The first part of this
module is about texts: `Path.ofText_text` reads a path back from its text, and
`Workspace.stepsOf_text` says which parts the text goes through. So `Workspace.locate_text` reduces
where the text of a path leads to `FileTree.follow`, and `Workspace.locate_eq_ok` says what has to
be true of any text that leads somewhere.

The second part is about trees. What there is has a name and stands in a directory
(`FileTree.isName_of_get?`, `FileTree.get?_parent`, `FileTree.get?_dropLast`), and what is written
at the end of one path is not seen along any other (`FileTree.get?_put_of_ne`,
`FileTree.follow_put_eq`). A way that ends at no directory has made its last step from one, by a
name that the system takes, so that a file can be put there: `Workspace.admits_of_locate`. -/

namespace Seashell

open Text

/-- Equality of outcomes need not be decidable for what they return to be computed. -/
theorem eq_ok_of_toOption {ε α : Type} {x : Except ε α} {a : α} (h : x.toOption = some a) :
    x = .ok a := by
  cases x with
  | error e => cases h
  | ok b => exact congrArg Except.ok (Option.some.inj h)

/-! ## The text of a path -/

namespace Path

/-- The part can stand between slashes. -/
def isPart (part : Text) : Bool := !part.isEmpty && !part.contains '/'

theorem isPart_iff {part : Text} : isPart part = true ↔ part ≠ [] ∧ '/' ∉ part := by
  simp [isPart]

theorem mem_partsOf {t part : Text} (h : part ∈ partsOf t) :
    isPart part = true ∧ part ≠ ['.'] := by
  obtain ⟨hmem, hstill⟩ := List.mem_filter.1 h
  have hslash := not_mem_of_mem_splitOn hmem
  simp only [isStill, Bool.not_eq_true', Bool.or_eq_false_iff, List.isEmpty_eq_false_iff,
    beq_eq_false_iff_ne] at hstill
  exact ⟨isPart_iff.2 ⟨hstill.1, hslash⟩, hstill.2⟩

theorem splitOn_join_concat {parents : List Text} (last : Text)
    (h : ∀ part ∈ parents, '/' ∉ part) :
    List.splitOn '/' (join ['/'] (parents ++ [last])) = parents ++ List.splitOn '/' last := by
  induction parents with
  | nil => rw [List.nil_append, join, List.intercalate_singleton, List.nil_append]
  | cons part parents ih =>
    obtain ⟨hpart, hparents⟩ := List.forall_mem_cons.1 h
    obtain ⟨next, rest, hnext⟩ := List.exists_cons_of_ne_nil
      (List.append_ne_nil_of_right_ne_nil parents (List.cons_ne_nil last []))
    rw [List.cons_append, hnext, join_cons_cons, ← hnext, List.singleton_append,
      List.splitOn_append_cons_self_of_not_mem hpart, ih hparents, List.cons_append]

theorem join_eq_cons {parts : List Text} (hne : parts ≠ [])
    (h : ∀ part ∈ parts, isPart part = true) :
    ∃ c rest, join ['/'] parts = c :: rest ∧ c ≠ '/' := by
  obtain ⟨part, parts, rfl⟩ := List.exists_cons_of_ne_nil hne
  obtain ⟨hpart, hslash⟩ := isPart_iff.1 (h part List.mem_cons_self)
  obtain ⟨c, cs, rfl⟩ := List.exists_cons_of_ne_nil hpart
  have hc : c ≠ '/' := fun he => hslash (he ▸ List.mem_cons_self)
  cases parts with
  | nil => exact ⟨c, cs, by simp [join], hc⟩
  | cons next rest => exact ⟨c, _, join_cons_cons ['/'] (c :: cs) next rest, hc⟩

theorem join_eq_concat {parts : List Text} (hne : parts ≠ [])
    (h : ∀ part ∈ parts, isPart part = true) :
    ∃ lead c, join ['/'] parts = lead ++ [c] ∧ c ≠ '/' := by
  induction parts with
  | nil => exact absurd rfl hne
  | cons part parts ih =>
    obtain ⟨hpart, hparts⟩ := List.forall_mem_cons.1 h
    cases parts with
    | nil =>
      obtain ⟨hne, hslash⟩ := isPart_iff.1 hpart
      refine ⟨part.dropLast, part.getLast hne, ?_, fun he => hslash (he ▸ List.getLast_mem hne)⟩
      rw [List.dropLast_concat_getLast, join, List.intercalate_singleton]
    | cons next rest =>
      obtain ⟨lead, c, hjoin, hc⟩ := ih (by simp) hparts
      exact ⟨part ++ '/' :: lead, c, by rw [join_cons_cons, hjoin]; simp, hc⟩

theorem text_eq (start : Start) {parts : List Text} (hne : parts ≠ []) :
    text ⟨start, parts⟩ = start.text ++ join ['/'] parts := by
  unfold text
  split
  · rename_i hparts
    exact absurd hparts hne
  · rfl

/-- Slashes in front say where a path starts, and nothing else: `ofText` reads the parts from the
    rest. -/
theorem ofText_start_append (start : Start) {t : Text} (h : t.head? ≠ some '/') :
    ofText (start.text ++ t) = ⟨start, partsOf t⟩ := by
  have hstart : startOf (start.text ++ t) = start := by
    cases t with
    | nil => cases start <;> rfl
    | cons c cs =>
      have hc : c ≠ '/' := fun he => h (by simp [he])
      cases start <;> simp [Start.text, startOf, hc]
  have hparts : partsOf (start.text ++ t) = partsOf t := by
    cases start <;> simp [partsOf, Start.text, List.splitOn_cons_eq_if_modifyHead, isStill]
  rw [ofText, hstart, hparts]

/-- The `last` of the parts that a text is made of may itself be read as a path. -/
theorem ofText_text_concat (start : Start) {parents : List Text} {last : Text}
    (hparents : ∀ part ∈ parents, isPart part = true ∧ part ≠ ['.'])
    (hlast : last.head? ≠ some '/') :
    ofText (text ⟨start, parents ++ [last]⟩) = ⟨start, parents ++ partsOf last⟩ := by
  have hhead : (join ['/'] (parents ++ [last])).head? ≠ some '/' := by
    cases parents with
    | nil => simpa [join] using hlast
    | cons part rest =>
      obtain ⟨hne, hslash⟩ := isPart_iff.1 (hparents part List.mem_cons_self).1
      obtain ⟨c, cs, rfl⟩ := List.exists_cons_of_ne_nil hne
      obtain ⟨next, more, hnext⟩ := List.exists_cons_of_ne_nil
        (List.append_ne_nil_of_right_ne_nil rest (List.cons_ne_nil last []))
      have hc : c ≠ '/' := fun he => hslash (he ▸ List.mem_cons_self)
      rw [List.cons_append, hnext, join_cons_cons]
      simpa using hc
  have hparts : partsOf (join ['/'] (parents ++ [last])) = parents ++ partsOf last := by
    rw [partsOf, splitOn_join_concat last fun part hp => (isPart_iff.1 (hparents part hp).1).2,
      List.filter_append, partsOf]
    refine congrArg (· ++ _) (List.filter_eq_self.2 fun part hp => ?_)
    obtain ⟨hpart, hdot⟩ := hparents part hp
    simp [isStill, (isPart_iff.1 hpart).1, hdot]
  rw [text_eq start (by simp), ofText_start_append start hhead, hparts]

theorem partsOf_of_isPart {part : Text} (hpart : isPart part = true) (hdot : part ≠ ['.']) :
    partsOf part = [part] := by
  obtain ⟨hne, hslash⟩ := isPart_iff.1 hpart
  rw [partsOf, List.splitOn_eq_singleton hslash]
  simp [isStill, hne, hdot]

theorem head?_of_isPart {part : Text} (hpart : isPart part = true) : part.head? ≠ some '/' :=
  fun he => (isPart_iff.1 hpart).2 (List.mem_of_head? he)

/-- `ofText` reads a path back from its text. -/
theorem ofText_text {start : Start} {parts : List Text} (hne : parts ≠ [])
    (h : ∀ part ∈ parts, isPart part = true ∧ part ≠ ['.']) :
    ofText (text ⟨start, parts⟩) = ⟨start, parts⟩ := by
  obtain ⟨parents, last, rfl⟩ : ∃ parents last, parts = parents ++ [last] :=
    ⟨_, _, (List.dropLast_concat_getLast hne).symm⟩
  obtain ⟨hparents, hlast⟩ := List.forall_mem_append.1 h
  obtain ⟨hpart, hdot⟩ := hlast last (by simp)
  rw [ofText_text_concat start hparents (head?_of_isPart hpart), partsOf_of_isPart hpart hdot]

/-- `ofText` reads a path back from its text, whatever text it was read from. -/
theorem ofText_text_ofText (t : Text) : ofText (ofText t).text = ofText t := by
  by_cases hne : partsOf t = []
  · have htext : ofText t = ⟨startOf t, []⟩ := congrArg (Path.mk (startOf t)) hne
    rw [htext]
    cases startOf t <;> rfl
  · exact ofText_text hne fun part => mem_partsOf

end Path

namespace Workspace

/-- The parts that the text of a path goes through, `stepsOf`, are the parts of the path. -/
theorem stepsOf_text (start : Path.Start) {parts : List Text} (hne : parts ≠ [])
    (h : ∀ part ∈ parts, Path.isPart part = true) : stepsOf (Path.text ⟨start, parts⟩) = parts := by
  have hsplit : List.splitOn '/' (join ['/'] parts) = parts :=
    List.splitOn_intercalate '/' (fun part hpart => (Path.isPart_iff.1 (h part hpart)).2) hne
  have hparts : parts.filter (!·.isEmpty) = parts := by
    refine List.filter_eq_self.2 fun part hpart => ?_
    simpa using (Path.isPart_iff.1 (h part hpart)).1
  have hslashes : (List.splitOn '/' (start.text ++ join ['/'] parts)).filter (!·.isEmpty) = parts := by
    cases start <;> simp [Path.Start.text, List.splitOn_cons_eq_if_modifyHead, hsplit, hparts]
  have hend : endsWith (start.text ++ join ['/'] parts) ['/'] = false := by
    obtain ⟨lead, c, hjoin, hc⟩ := Path.join_eq_concat hne h
    rw [hjoin, ← List.append_assoc]
    simpa [endsWith, List.isSuffixOf, List.isPrefixOf] using hc.symm
  rw [Path.text_eq start hne, stepsOf, hslashes, hend]
  simp

/-- The directory that a path starts from: that of the workspace, `here`, or the topmost one. -/
def origin (w : Workspace) : Path.Start → Route
  | .here => w.here.parts
  | _ => []

theorem origin_startOf_slash (w : Workspace) (rest : Text) :
    w.origin (Path.startOf ('/' :: rest)) = [] := by
  unfold Path.startOf
  split <;> simp_all [origin]

theorem origin_startOf_of_ne (w : Workspace) {c : Char} (rest : Text) (hc : c ≠ '/') :
    w.origin (Path.startOf (c :: rest)) = w.here.parts := by
  unfold Path.startOf
  split <;> simp_all [origin]

theorem locate_of_tooLong {w : Workspace} {path : Text} (hnul : '\x00' ∉ path)
    (hlong : FileTree.pathLimit < FileTree.byteLength path) : w.locate path = .error .tooLong := by
  unfold locate
  rw [if_neg (by simpa using hnul), if_pos hlong]

/-- `locate` leads somewhere if the system takes the path and its parts can be followed. -/
theorem locate_eq_ok {w : Workspace} {path : Text} {r : Route} :
    w.locate path = .ok r ↔
      '\x00' ∉ path ∧ FileTree.byteLength path ≤ FileTree.pathLimit ∧ path ≠ [] ∧
        w.tree.follow (w.origin (Path.startOf path)) (stepsOf path) = .ok r := by
  unfold locate
  by_cases hnul : '\x00' ∈ path
  · rw [if_pos (by simpa using hnul)]
    simp [hnul]
  · rw [if_neg (by simpa using hnul), and_iff_right hnul]
    by_cases hlong : FileTree.pathLimit < FileTree.byteLength path
    · rw [if_pos hlong]
      simp [Nat.not_le.2 hlong]
    · rw [if_neg hlong, and_iff_right (Nat.not_lt.1 hlong)]
      cases path with
      | nil => simp
      | cons c rest =>
        rw [and_iff_right (List.cons_ne_nil c rest)]
        by_cases hc : c = '/'
        · rw [hc, origin_startOf_slash]
          exact Iff.rfl
        · rw [origin_startOf_of_ne w rest hc]
          split
          · rename_i hnil
            cases hnil
          · rename_i hslash
            exact absurd (List.cons.inj hslash).1 hc
          · exact Iff.rfl

/-- `locate` follows the text of a path part by part, unless the system refuses it as a whole. -/
theorem locate_text (w : Workspace) (start : Path.Start) {parts : List Text} (hne : parts ≠ [])
    (h : ∀ part ∈ parts, Path.isPart part = true) :
    w.locate (Path.text ⟨start, parts⟩) =
      if (Path.text ⟨start, parts⟩).contains '\x00' then .error .nul
      else if FileTree.pathLimit < FileTree.byteLength (Path.text ⟨start, parts⟩) then
        .error .tooLong
      else w.tree.follow (w.origin start) parts := by
  have hsteps := stepsOf_text start hne h
  obtain ⟨c, rest, hjoin, hc⟩ := Path.join_eq_cons hne h
  unfold locate
  split
  · rfl
  · split
    · rfl
    · rw [hsteps]
      cases start with
      | here =>
        have htext : Path.text ⟨.here, parts⟩ = c :: rest := (Path.text_eq .here hne).trans hjoin
        rw [htext]
        -- a relative path starts with its first part, and so not with a slash
        split
        · rename_i hnil
          cases hnil
        · rename_i hslash
          exact absurd (List.cons.inj hslash).1 hc
        · rfl
      | root =>
        rw [Path.text_eq .root hne]
        rfl
      | doubleRoot =>
        rw [Path.text_eq .doubleRoot hne]
        rfl

end Workspace

/-! ## Following parts -/

namespace FileTree

/-- `follow` can take the parts of a path in two goes. -/
theorem follow_append_eq_ok {t : FileTree} {r s : Route} {first second : List Text} :
    t.follow r (first ++ second) = .ok s ↔
      ∃ middle, t.follow r first = .ok middle ∧ t.follow middle second = .ok s := by
  induction first generalizing r with
  | nil => simp [follow]
  | cons part rest ih =>
    rw [List.cons_append, follow, follow]
    split
    · simp
    · simp
    · split
      · simp
      · exact ih

theorem follow_singleton_eq_ok {t : FileTree} {r s : Route} {part : Text} :
    t.follow r [part] = .ok s ↔
      t.get? r = some .directory ∧ byteLength part ≤ nameLimit ∧ stepFrom r part = s := by
  simp only [follow]
  split
  · rename_i hnone
    simp [hnone]
  · rename_i hfile
    simp [hfile]
  · rename_i hdirectory
    simp only [hdirectory, true_and]
    split
    · rename_i hlong
      simp only [reduceCtorEq, false_iff]
      omega
    · rename_i hlong
      simp only [Except.ok.injEq]
      exact (and_iff_right (by omega)).symm

theorem get?_put_of_ne {t : FileTree} {r place : Route} (e : Entry) (h : r ≠ place) :
    (t.put place e).get? r = t.get? r := by
  cases hadmits : t.admits place e with
  | false => rw [put_of_not_admits hadmits]
  | true => rw [get?_put r hadmits, if_neg h]

/-- A file that is put somewhere changes no way of `follow` through the tree. At most, where nothing
    was found there may now be something that is no directory. -/
theorem follow_put_eq {t : FileTree} {r place : Route} {parts : List Text}
    {x : Except Obstacle Route} (content : Bytes) (hfound : x ≠ .error .notFound)
    (hdirectory : x ≠ .error .notDirectory) :
    (t.put place (.file content)).follow r parts = x ↔ t.follow r parts = x := by
  cases hadmits : t.admits place (.file content) with
  | false => rw [put_of_not_admits hadmits]
  | true =>
    have hplace : t.get? place ≠ some .directory := by
      simpa using (admits_iff.1 hadmits).2.2.2
    induction parts generalizing r with
    | nil => exact Iff.rfl
    | cons part rest ih =>
      simp only [follow]
      by_cases hr : r = place
      · -- a way only goes through directories, and the place is none before and after
        rw [hr, get?_put place hadmits, if_pos rfl]
        cases hget : t.get? place with
        | none => exact iff_of_false hdirectory.symm hfound.symm
        | some e =>
          cases e with
          | file _ => exact Iff.rfl
          | directory => exact absurd hget hplace
      · rw [get?_put_of_ne _ hr]
        split
        · exact Iff.rfl
        · exact Iff.rfl
        · split
          · exact Iff.rfl
          · exact ih

/-- `stepFrom` leads from one directory by different parts to different places. -/
theorem stepFrom_injective {r : Route} {part other : Text} (hpart : part ≠ ['.'])
    (hother : other ≠ ['.']) (h : stepFrom r part = stepFrom r other) : part = other := by
  -- a step down never ends where the step up does
  have hlength : ∀ p : Text, r ++ [p] ≠ r.dropLast := by
    intro p he
    have : (r ++ [p]).length = r.dropLast.length := congrArg List.length he
    simp only [List.length_append, List.length_singleton, List.length_dropLast] at this
    omega
  simp only [stepFrom, if_neg hpart, if_neg hother] at h
  split at h
  · rename_i hup
    split at h
    · rename_i hup'
      rw [hup, hup']
    · exact absurd h.symm (hlength other)
  · split at h
    · exact absurd h (hlength part)
    · simpa using h

/-! ## What a tree holds -/

theorem isFileName_iff {t : Text} :
    isFileName t = true ↔ Path.isPart t = true ∧ '\x00' ∉ t ∧ byteLength t ≤ nameLimit := by
  simp [isFileName, Path.isPart, and_assoc]

theorem isName_iff {t : Text} :
    isName t = true ↔ isFileName t = true ∧ t ≠ ['.'] ∧ t ≠ ['.', '.'] := by
  simp [isName, and_assoc]

theorem isPart_of_isName {t : Text} (h : isName t = true) : Path.isPart t = true :=
  (isFileName_iff.1 (isName_iff.1 h).1).1

theorem stepFrom_of_isName {t : Text} (r : Route) (h : isName t = true) :
    stepFrom r t = r ++ [t] := by
  obtain ⟨_, hdot, hup⟩ := isName_iff.1 h
  rw [stepFrom, if_neg hdot, if_neg hup]

theorem get?_eq_some_iff_mem {t : FileTree} {r : Route} {e : Entry} (hne : r ≠ []) :
    t.get? r = some e ↔ (r, e) ∈ t.entries := by
  rw [get?, find?, if_neg hne]
  exact ⟨Assoc.mem_of_lookup, Assoc.lookup_of_mem t.distinct⟩

/-- Whatever a tree holds is reached by parts with `isName`. -/
theorem isName_of_get? {t : FileTree} {r : Route} {e : Entry} (h : t.get? r = some e) :
    ∀ part ∈ r, isName part = true := by
  by_cases hne : r = []
  · simp [hne]
  · exact (t.named _ ((get?_eq_some_iff_mem hne).1 h)).2

/-- Whatever a tree holds is in a directory. -/
theorem get?_dropLast {t : FileTree} {r : Route} {e : Entry} (h : t.get? r = some e) :
    t.get? r.dropLast = some .directory := by
  by_cases hne : r = []
  · rw [hne]
    rfl
  · exact t.rooted _ ((get?_eq_some_iff_mem hne).1 h)

theorem get?_parent {t : FileTree} {r : Route} {name : Text} {e : Entry}
    (h : t.get? (r ++ [name]) = some e) : t.get? r = some .directory := by
  have habove := get?_dropLast h
  rwa [List.dropLast_concat] at habove

/-- What has something below it is a `directory`. -/
theorem get?_above {t : FileTree} {r below : Route} {e : Entry} (hne : below ≠ [])
    (h : t.get? (r ++ below) = some e) : t.get? r = some .directory := by
  induction below generalizing r with
  | nil => exact absurd rfl hne
  | cons name rest ih =>
    by_cases hrest : rest = []
    · rw [hrest] at h
      exact get?_parent h
    · rw [← List.singleton_append, ← List.append_assoc] at h
      exact get?_parent (ih hrest h)

/-- `stepFrom` leads from a directory to a directory, or to where a file can be put. -/
theorem admits_stepFrom {t : FileTree} {directory : Route} {part : Text} (content : Bytes)
    (hdirectory : t.get? directory = some .directory) (hpart : isFileName part = true)
    (hfree : t.get? (stepFrom directory part) ≠ some .directory) :
    t.admits (stepFrom directory part) (.file content) = true := by
  have hname : isName part = true := by
    refine isName_iff.2 ⟨hpart, fun hdot => hfree ?_, fun hup => hfree ?_⟩
    · rw [stepFrom, if_pos hdot, hdirectory]
    · rw [stepFrom, hup, if_neg (by decide), if_pos rfl, get?_dropLast hdirectory]
  rw [stepFrom_of_isName directory hname] at hfree ⊢
  refine admits_iff.2 ⟨by simp, ?_, by rwa [List.dropLast_concat], .inr hfree⟩
  exact List.forall_mem_append.2 ⟨isName_of_get? hdirectory, by simpa using hname⟩

end FileTree

namespace Workspace

theorem mem_stepsOf {path part : Text} (h : part ∈ stepsOf path) :
    Path.isPart part = true ∧ ('\x00' ∉ path → '\x00' ∉ part) := by
  rcases List.mem_append.1 h with h | h
  · obtain ⟨hmem, hne⟩ := List.mem_filter.1 h
    refine ⟨Path.isPart_iff.2 ⟨by simpa using hne, not_mem_of_mem_splitOn hmem⟩, fun hnul hmem' => ?_⟩
    exact hnul (subset_of_mem_splitOn hmem hmem')
  · have hdot : part = ['.'] := by
      split at h
      · exact List.mem_singleton.1 h
      · cases h
    rw [hdot]
    exact ⟨by decide, fun _ => by decide⟩

theorem stepsOf_ne_nil {path : Text} (h : path ≠ []) : stepsOf path ≠ [] := by
  intro hnil
  obtain ⟨hpieces, hend⟩ := List.append_eq_nil_iff.1 hnil
  obtain ⟨lead, c, rfl⟩ : ∃ lead c, path = lead ++ [c] :=
    ⟨_, _, (List.dropLast_concat_getLast h).symm⟩
  -- the last character is a slash, which asks for a directory, or stands in a part
  by_cases hc : c = '/'
  · simp [hc, endsWith, List.isSuffixOf, List.isPrefixOf] at hend
  · obtain ⟨piece, hpiece, hmem⟩ := exists_mem_splitOn (s := lead ++ [c]) (by simp) hc
    have hempty := List.filter_eq_nil_iff.1 hpieces piece hpiece
    simp only [Bool.not_eq_true', List.isEmpty_eq_false_iff, Decidable.not_not] at hempty
    rw [hempty] at hmem
    cases hmem

/-- A path that leads somewhere by `locate` makes a last step from a directory. -/
theorem last_step_of_locate {w : Workspace} {path : Text} {r : Route} (h : w.locate path = .ok r) :
    ∃ directory part, w.tree.get? directory = some .directory ∧
      FileTree.isFileName part = true ∧ FileTree.stepFrom directory part = r := by
  obtain ⟨hnul, _, hne, hfollow⟩ := locate_eq_ok.1 h
  have hsteps := (List.dropLast_concat_getLast (stepsOf_ne_nil hne)).symm
  rw [hsteps] at hfollow
  obtain ⟨directory, _, hlast⟩ := FileTree.follow_append_eq_ok.1 hfollow
  obtain ⟨hget, hshort, hstep⟩ := FileTree.follow_singleton_eq_ok.1 hlast
  obtain ⟨hpart, hclean⟩ := mem_stepsOf (List.getLast_mem (stepsOf_ne_nil hne))
  exact ⟨directory, _, hget, FileTree.isFileName_iff.2 ⟨hpart, hclean hnul, hshort⟩, hstep⟩

/-- Where a path leads by `locate` there is a directory, or a file can be put. -/
theorem admits_of_locate {w : Workspace} {path : Text} {r : Route} (content : Bytes)
    (h : w.locate path = .ok r) (hfree : w.tree.get? r ≠ some .directory) :
    w.tree.admits r (.file content) = true := by
  obtain ⟨directory, part, hget, hpart, rfl⟩ := last_step_of_locate h
  exact FileTree.admits_stepFrom content hget hpart hfree

end Workspace
end Seashell
